import MachineController.Go.Basic
import MachineController.Go.Strconv
import MachineController.Wait.Poll
import MachineController.Crypto.Rsa
import MachineController.Digitalocean.Types
import MachineController.Digitalocean.Get
import MachineController.Digitalocean.Keys
import MachineController.Digitalocean.Create
import MachineController.Digitalocean.Validate
import MachineController.Encoding.Base64
import MachineController.Encoding.Pem
import MachineController.Encoding.Asn1.Integer
import MachineController.Encoding.Asn1.Field
import MachineController.Encoding.Asn1.Canonical
import MachineController.Crypto.Pkcs1
import MachineController.Ssh.Secret
