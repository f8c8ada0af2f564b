import MachineController.Encoding.Base64

/-!
# MachineController.Encoding.Pem — `encoding/pem`

`EnsureSSHKeypairSecret` stores its key as `pem.Encode` of a block without headers, and
`keyFromSecret` reads it with `pem.Decode`.  `decode` follows `pem.Decode` of Go 1.15, the
release the build image of `.prow.yaml` carries, with its three exits: a block and the bytes
after it; `nil` and the input, when no `-----BEGIN` starts a block or the headers run to the end
of the input; and `decodeError`, which starts over after a malformed block.  `decodeBody` is
the part after the BEGIN marker, up to the first of those exits; the `bytes` helpers (`indexByte`, `index`, `getLine`, …) are written on byte lists.

`encode` is `pem.Encode` into a `bytes.Buffer`, whose writes never fail: the BEGIN line, the
base64 of the bytes through `lineBreaker` (`lineBreak`, a newline after every 64 characters and
after a last, shorter line), and the END line.

* `decode_encode_append`: a block without headers, whose type has no newline and no colon,
  decodes back from its encoding, and the bytes after it are left over;
* `decode_of_afterBegin_none`: bytes in which no BEGIN marker stands decode to `nil`.
-/

namespace MachineController.Encoding.Pem

open MachineController.Go

/-! ## `bytes` helpers -/

/-- `bytes.IndexByte(s, c)`; `none` is `-1`. -/
def indexByte : List UInt8 → UInt8 → Option Nat
  | [], _ => none
  | x :: xs, c => if x = c then some 0 else (indexByte xs c).map (· + 1)

/-- `bytes.Index(s, sep)`: the first position at which `sep` starts; `none` is `-1`. -/
def index : List UInt8 → List UInt8 → Option Nat
  | [], sep => if sep = [] then some 0 else none
  | x :: xs, sep => if sep.isPrefixOf (x :: xs) then some 0 else (index xs sep).map (· + 1)

/-- A space or a tab. -/
def isSpaceTab (c : UInt8) : Bool := c = 32 ∨ c = 9

/-- `bytes.TrimRight(s, " \t")`. -/
def trimRight (s : List UInt8) : List UInt8 := (s.reverse.dropWhile isSpaceTab).reverse

/-- ASCII white space, what `unicode.IsSpace` accepts of a single byte. -/
def isSpace (c : UInt8) : Bool := c = 32 ∨ (9 ≤ c ∧ c ≤ 13)

/-- `bytes.TrimSpace`. -/
def trimSpace (s : List UInt8) : List UInt8 :=
  ((s.dropWhile isSpace).reverse.dropWhile isSpace).reverse

/-- `removeSpacesAndTabs`. -/
def removeSpacesAndTabs (s : List UInt8) : List UInt8 := s.filter fun c => !isSpaceTab c

/-- The line `getLine` cuts ends before a CR that precedes the LF. -/
def dropCR (line : List UInt8) : List UInt8 :=
  if line.getLast? = some 13 then line.dropLast else line

/-- `getLine`: the bytes before the first LF, without a CR before it and without trailing spaces
and tabs, and the bytes after the LF. -/
def getLine (data : List UInt8) : List UInt8 × List UInt8 :=
  match indexByte data 10 with
  | none => (trimRight data, [])
  | some i => (trimRight (dropCR (data.take i)), data.drop (i + 1))

theorem indexByte_lt {s : List UInt8} {c : UInt8} {i : Nat} (h : indexByte s c = some i) :
    i < s.length := by
  induction s generalizing i with
  | nil => cases h
  | cons x xs ih =>
    simp only [indexByte] at h
    split at h
    · cases h; simp
    · obtain ⟨j, hj, rfl⟩ := Option.map_eq_some'.mp h
      simpa using ih hj

theorem getLine_snd_length_lt {data : List UInt8} (h : data ≠ []) :
    (getLine data).2.length < data.length := by
  unfold getLine
  split
  · exact List.length_pos.mpr h
  · rename_i i hi
    have := indexByte_lt hi
    simp only [List.length_drop]; omega

theorem getLine_snd_length_le (data : List UInt8) : (getLine data).2.length ≤ data.length := by
  by_cases h : data = []
  · subst h; rfl
  · exact (getLine_snd_length_lt h).le

theorem index_spec {s sep : List UInt8} {i : Nat} (h : index s sep = some i) :
    sep.isPrefixOf (s.drop i) = true := by
  induction s generalizing i with
  | nil =>
    simp only [index] at h
    split at h
    · cases h; subst sep; rfl
    · cases h
  | cons x xs ih =>
    simp only [index] at h
    split at h
    · cases h; assumption
    · obtain ⟨j, hj, rfl⟩ := Option.map_eq_some'.mp h
      exact ih hj

theorem index_le_length {s sep : List UInt8} {i : Nat} (h : index s sep = some i) :
    i ≤ s.length := by
  induction s generalizing i with
  | nil =>
    simp only [index] at h
    split at h
    · cases h; rfl
    · cases h
  | cons x xs ih =>
    simp only [index] at h
    split at h
    · cases h; simp
    · obtain ⟨j, hj, rfl⟩ := Option.map_eq_some'.mp h
      simpa using ih hj

theorem index_add_length_le {s sep : List UInt8} {i : Nat} (h : index s sep = some i) :
    i + sep.length ≤ s.length := by
  have hpre := (List.isPrefixOf_iff_prefix.mp (index_spec h)).length_le
  have hle := index_le_length h
  simp only [List.length_drop] at hpre
  omega

/-! ## Encoding -/

/-- `pem.Block`: its type, its headers in the order they were read, and its bytes. -/
structure Block where
  type : List UInt8
  headers : List (List UInt8 × List UInt8)
  bytes : List UInt8
deriving DecidableEq, Repr

/-- `pemStart`. -/
def pemStart : List UInt8 := ascii "\n-----BEGIN "

/-- `pemEnd`. -/
def pemEnd : List UInt8 := ascii "\n-----END "

/-- `pemEndOfLine`. -/
def pemEndOfLine : List UInt8 := ascii "-----"

/-- `pemLineLength`. -/
def pemLineLength : Nat := 64

/-- `lineBreaker`, fed one byte at a time with `used` bytes in the current line: a newline after
the 64th byte of a line, and `Close` ends a partial line with one. -/
def lineBreak : Nat → List UInt8 → List UInt8
  | used, [] => if 0 < used then [10] else []
  | used, c :: cs =>
    if used + 1 = pemLineLength then c :: 10 :: lineBreak 0 cs else c :: lineBreak (used + 1) cs

/-- `pem.Encode` of a block without headers, into a buffer: the BEGIN line, the base64 of the
bytes in lines of 64 characters, the END line. -/
def encode (type bytes : List UInt8) : List UInt8 :=
  pemStart.drop 1 ++ type ++ ascii "-----\n" ++ lineBreak 0 (Base64.encode bytes) ++
    pemEnd.drop 1 ++ type ++ ascii "-----\n"

/-! ## Decoding -/

/-- The bytes after the BEGIN marker: at the very start of the input it may stand without the
newline in front of it. -/
def afterBegin (data : List UInt8) : Option (List UInt8) :=
  if (pemStart.drop 1).isPrefixOf data then some (data.drop (pemStart.length - 1))
  else (index data pemStart).map fun i => data.drop (i + pemStart.length)

theorem afterBegin_length {data rest : List UInt8} (h : afterBegin data = some rest) :
    rest.length < data.length := by
  unfold afterBegin at h
  split at h
  · rename_i hp
    cases h
    have := (List.isPrefixOf_iff_prefix.mp hp).length_le
    simp only [List.length_drop, pemStart, ascii, List.length_map, List.length_drop] at this ⊢
    simp at this ⊢; omega
  · obtain ⟨i, hi, rfl⟩ := Option.map_eq_some'.mp h
    have := index_add_length_le hi
    simp only [List.length_drop, pemStart, ascii] at this ⊢
    simp at this ⊢; omega

/-- The header loop of `pem.Decode`: lines with a colon are headers; a line without one ends the
loop; running out of input is `return nil, data`. -/
def headerLoop : List UInt8 → Option (List (List UInt8 × List UInt8) × List UInt8) :=
  boundedFix List.length (fun headerLoop rest =>
    if rest = [] then none
    else
      let line := (getLine rest).1
      match indexByte line 58 with
      | none => some ([], rest)
      | some i =>
        (headerLoop (getLine rest).2).map fun r =>
          ((trimSpace (line.take i), trimSpace (line.drop (i + 1))) :: r.1, r.2)) none

theorem headerLoop_eq (rest : List UInt8) :
    headerLoop rest =
      if rest = [] then none
      else
        match indexByte (getLine rest).1 58 with
        | none => some ([], rest)
        | some i =>
          (headerLoop (getLine rest).2).map fun r =>
            ((trimSpace ((getLine rest).1.take i), trimSpace ((getLine rest).1.drop (i + 1))) :: r.1,
              r.2) :=
  boundedFix_eq (fun g g' rest h => by
    split_ifs with hr
    · rfl
    · dsimp only
      split
      · rfl
      · rw [h _ (getLine_snd_length_lt hr)]) rest

/-- Where the END line starts in `rest`, and where its type starts.  Without headers it may
stand at the very start, without the newline in front of it. -/
def endIndices (headers : List (List UInt8 × List UInt8)) (rest : List UInt8) :
    Option (Nat × Nat) :=
  if headers = [] ∧ (pemEnd.drop 1).isPrefixOf rest then some (0, pemEnd.length - 1)
  else (index rest pemEnd).map fun i => (i, i + pemEnd.length)

theorem headerLoop_length {rest rest' : List UInt8} {hs : List (List UInt8 × List UInt8)}
    (h : headerLoop rest = some (hs, rest')) : rest'.length ≤ rest.length := by
  rw [headerLoop_eq] at h
  split_ifs at h with hnil
  split at h
  · simp only [Option.some.injEq, Prod.mk.injEq] at h
    rw [← h.2]
  · obtain ⟨⟨hs', r⟩, hr, hrr⟩ := Option.map_eq_some'.mp h
    simp only [Prod.mk.injEq] at hrr
    rw [← hrr.2]
    exact (headerLoop_length hr).trans (getLine_snd_length_le rest)
termination_by rest.length
decreasing_by exact getLine_snd_length_lt hnil

/-- How `pem.Decode` leaves the part after the BEGIN marker. -/
inductive BodyResult
  /-- `return p, rest`. -/
  | block (p : Block) (rest : List UInt8)
  /-- `return nil, data`. -/
  | notFound
  /-- `return decodeError(data, rest)`. -/
  | retry (rest : List UInt8)
deriving DecidableEq, Repr

/-- `pem.Decode` after the BEGIN marker. -/
def decodeBody (afterMarker : List UInt8) : BodyResult :=
  let typeLine := (getLine afterMarker).1
  let rest := (getLine afterMarker).2
  if !pemEndOfLine.isSuffixOf typeLine then .retry rest
  else
    let typeLine := typeLine.take (typeLine.length - pemEndOfLine.length)
    match headerLoop rest with
    | none => .notFound
    | some (headers, rest) =>
      match endIndices headers rest with
      | none => .retry rest
      | some (endIndex, endTrailerIndex) =>
        let endTrailer := rest.drop endTrailerIndex
        let endTrailerLen := typeLine.length + pemEndOfLine.length
        if endTrailer.length < endTrailerLen then .retry rest
        else
          let restOfEndLine := endTrailer.drop endTrailerLen
          let endTrailer := endTrailer.take endTrailerLen
          if !(typeLine.isPrefixOf endTrailer && pemEndOfLine.isSuffixOf endTrailer) then
            .retry rest
          else if (getLine restOfEndLine).1 ≠ [] then .retry rest
          else
            match Base64.decode (removeSpacesAndTabs (rest.take endIndex)) with
            | none => .retry rest
            | some bytes =>
              .block ⟨typeLine, headers, bytes⟩
                (getLine (rest.drop (endIndex + pemEnd.length - 1))).2

theorem decodeBody_retry_length {afterMarker rest : List UInt8}
    (h : decodeBody afterMarker = .retry rest) : rest.length ≤ afterMarker.length := by
  have hline := getLine_snd_length_le afterMarker
  unfold decodeBody at h
  dsimp only at h
  split at h
  · cases h; exact hline
  · split at h
    · cases h
    · rename_i headers rest' hloop
      have := (headerLoop_length hloop).trans hline
      repeat' split at h
      all_goals first | (cases h; exact this) | cases h

/-- `pem.Decode`: the first block and the bytes after it, or `nil` and the input.  After a
malformed block, `decodeError` decodes what follows it, and answers with the input if that finds
no block either. -/
def decode : List UInt8 → Option Block × List UInt8 :=
  boundedFix List.length (fun decode data =>
    match afterBegin data with
    | none => (none, data)
    | some afterMarker =>
      match decodeBody afterMarker with
      | .block p rest => (some p, rest)
      | .notFound => (none, data)
      | .retry rest =>
        match decode rest with
        | (none, _) => (none, data)
        | (some p, rest') => (some p, rest')) (none, [])

theorem decode_eq (data : List UInt8) :
    decode data =
      match afterBegin data with
      | none => (none, data)
      | some afterMarker =>
        match decodeBody afterMarker with
        | .block p rest => (some p, rest)
        | .notFound => (none, data)
        | .retry rest =>
          match decode rest with
          | (none, _) => (none, data)
          | (some p, rest') => (some p, rest') :=
  boundedFix_eq (fun g g' data h => by
    cases hb : afterBegin data with
    | none => rfl
    | some afterMarker =>
      dsimp only
      cases hd : decodeBody afterMarker with
      | retry rest =>
        dsimp only
        rw [h _ ((decodeBody_retry_length hd).trans_lt (afterBegin_length hb))]
      | _ => rfl) data

/-! ## Helper facts -/

theorem indexByte_eq_none {s : List UInt8} {c : UInt8} (h : c ∉ s) : indexByte s c = none := by
  induction s with
  | nil => rfl
  | cons x xs ih =>
    rw [List.mem_cons, not_or] at h
    simp [indexByte, Ne.symm h.1, ih h.2]

theorem indexByte_append {xs ys : List UInt8} {c : UInt8} (h : c ∉ xs) :
    indexByte (xs ++ c :: ys) c = some xs.length := by
  induction xs with
  | nil => simp [indexByte]
  | cons x xs ih =>
    rw [List.mem_cons, not_or] at h
    simp [indexByte, Ne.symm h.1, ih h.2]

theorem trimRight_sublist (s : List UInt8) : (trimRight s).Sublist s := by
  simpa using (List.dropWhile_sublist isSpaceTab : (s.reverse.dropWhile isSpaceTab).Sublist _).reverse

theorem dropCR_sublist (line : List UInt8) : (dropCR line).Sublist line := by
  unfold dropCR
  split
  · exact List.dropLast_sublist _
  · exact List.Sublist.refl _

/-- A byte of `xs` is found in `xs ++ ys` before the end of `xs`. -/
theorem indexByte_append_of_mem {xs ys : List UInt8} {c : UInt8} (h : c ∈ xs) :
    ∃ i < xs.length, indexByte (xs ++ ys) c = some i := by
  induction xs with
  | nil => cases h
  | cons x xs ih =>
    by_cases hx : x = c
    · exact ⟨0, by simp, by simp [indexByte, hx]⟩
    · obtain ⟨i, hi, he⟩ := ih ((List.mem_cons.mp h).resolve_left (Ne.symm hx))
      exact ⟨i + 1, by simpa using hi, by simp [indexByte, hx, he]⟩

/-- The first line of `xs ++ ys` lies in `xs` when `xs` holds a newline. -/
theorem getLine_fst_sublist_of_mem {xs ys : List UInt8} (h : 10 ∈ xs) :
    (getLine (xs ++ ys)).1.Sublist xs := by
  obtain ⟨i, hi, he⟩ := @indexByte_append_of_mem xs ys 10 h
  unfold getLine
  rw [he]
  dsimp only
  rw [List.take_append_of_le_length hi.le]
  exact (trimRight_sublist _).trans ((dropCR_sublist _).trans (List.take_sublist _ _))

/-- A line that ends in a byte other than CR, space and tab is cut as it stands. -/
theorem getLine_append {line rest : List UInt8} {c : UInt8} (hnl : 10 ∉ line)
    (hlast : line.getLast? = some c) (hc : c ≠ 13 ∧ isSpaceTab c = false) :
    getLine (line ++ 10 :: rest) = (line, rest) := by
  have hne : line ≠ [] := by rintro rfl; cases hlast
  obtain ⟨init, rfl⟩ : ∃ init, line = init ++ [c] := ⟨line.dropLast,
    by rw [List.getLast?_eq_getLast line hne, Option.some.injEq] at hlast
       rw [← hlast, List.dropLast_append_getLast]⟩
  have hor : ∀ o : Option UInt8, (some c).or o = some c := fun _ => rfl
  simp only [getLine, indexByte_append hnl, List.take_left' rfl, dropCR, List.getLast?_append,
    List.getLast?_singleton, hor, Option.some.injEq, hc.1, if_false, trimRight,
    List.reverse_append, List.reverse_singleton, List.singleton_append, List.dropWhile_cons, hc.2,
    Bool.false_eq_true, List.reverse_cons, List.reverse_reverse, Prod.mk.injEq, true_and]
  rw [List.drop_append_eq_append_drop]
  simp [hc.2]

/-- A first line without a colon ends the headers before they start. -/
theorem headerLoop_of_no_colon {rest : List UInt8} (hne : rest ≠ []) (h : 58 ∉ (getLine rest).1) :
    headerLoop rest = some ([], rest) := by
  rw [headerLoop_eq, if_neg hne, indexByte_eq_none h]

theorem pemEnd_eq : pemEnd = 10 :: 45 :: pemEnd.drop 2 := rfl

/-- The first `pemEnd` in a text stands after every byte of a prefix without a dash. -/
theorem index_pemEnd {xs : List UInt8} (zs : List UInt8) (h : 45 ∉ xs) :
    index (xs ++ pemEnd ++ zs) pemEnd = some xs.length := by
  induction xs with
  | nil =>
    have : pemEnd.isPrefixOf (pemEnd ++ zs) = true :=
      List.isPrefixOf_iff_prefix.mpr (List.prefix_append _ _)
    rw [pemEnd_eq] at this
    rw [List.nil_append, pemEnd_eq]
    simp only [List.cons_append, index]
    exact if_pos this
  | cons x xs ih =>
    rw [List.mem_cons, not_or] at h
    have hnot : pemEnd.isPrefixOf (x :: (xs ++ pemEnd ++ zs)) = false := by
      cases xs with
      | nil => rw [pemEnd_eq]; simp [List.isPrefixOf_cons₂]
      | cons y ys =>
        have hy : y ≠ 45 := fun hy => h.2 (hy ▸ List.mem_cons_self y ys)
        rw [pemEnd_eq]; simp [List.isPrefixOf_cons₂, Ne.symm hy]
    show index (x :: (xs ++ pemEnd ++ zs)) pemEnd = some (xs.length + 1)
    rw [index, hnot]
    simp only [Bool.false_eq_true, if_false, ih h.2, Option.map_some']

/-! ## The line breaker -/

theorem lineBreak_filter (used : Nat) (cs : List UInt8) :
    (lineBreak used cs).filter (fun c => !Base64.isNewline c) =
      cs.filter (fun c => !Base64.isNewline c) := by
  induction cs generalizing used with
  | nil => unfold lineBreak; split <;> rfl
  | cons c cs ih =>
    have h10 : Base64.isNewline 10 = true := rfl
    unfold lineBreak; split <;> simp [List.filter_cons, ih, h10]

theorem mem_lineBreak {used : Nat} {cs : List UInt8} {c : UInt8} (h : c ∈ lineBreak used cs) :
    c ∈ cs ∨ c = 10 := by
  induction cs generalizing used with
  | nil =>
    unfold lineBreak at h
    split at h
    · exact .inr (List.mem_singleton.mp h)
    · cases h
  | cons x xs ih =>
    unfold lineBreak at h
    split at h
    · rcases List.mem_cons.mp h with rfl | h
      · exact .inl (List.mem_cons_self _ _)
      rcases List.mem_cons.mp h with rfl | h
      · exact .inr rfl
      · exact (ih h).imp_left (List.mem_cons_of_mem x)
    · rcases List.mem_cons.mp h with rfl | h
      · exact .inl (List.mem_cons_self _ _)
      · exact (ih h).imp_left (List.mem_cons_of_mem x)

/-- A nonempty text comes out of the line breaker ending in a newline. -/
theorem lineBreak_ends (used : Nat) {cs : List UInt8} (hne : cs ≠ []) :
    ∃ init, lineBreak used cs = init ++ [10] := by
  induction cs generalizing used with
  | nil => exact absurd rfl hne
  | cons c cs ih =>
    unfold lineBreak
    by_cases hcs : cs = []
    · subst hcs
      split
      · exact ⟨[c], rfl⟩
      · exact ⟨[c], by simp [lineBreak]⟩
    · split
      · obtain ⟨init, h⟩ := ih 0 hcs
        exact ⟨c :: 10 :: init, by rw [h]; rfl⟩
      · obtain ⟨init, h⟩ := ih (used + 1) hcs
        exact ⟨c :: init, by rw [h]; rfl⟩

/-! ## The round trip -/

/-- The body of an encoded block holds base64 characters and newlines: no dash, colon, space or
tab. -/
theorem mem_body {bytes : List UInt8} {c : UInt8} (h : c ∈ lineBreak 0 (Base64.encode bytes)) :
    c ≠ 45 ∧ c ≠ 58 ∧ isSpaceTab c = false := by
  rcases mem_lineBreak h with h | rfl
  · obtain ⟨h45, h58, h32, h9⟩ := Base64.mem_encode_plain h
    exact ⟨h45, h58, by simp [isSpaceTab, h32, h9]⟩
  · decide

theorem getLine_newline (after : List UInt8) : getLine (10 :: after) = ([], after) := rfl

/-- `decodeBody` on a BEGIN line, no headers, and an END line that closes the block, followed by
`after`. -/
theorem decodeBody_of_parts {afterMarker rest type bytes after : List UInt8} {e e' : Nat}
    (hline : getLine afterMarker = (type ++ pemEndOfLine, rest))
    (hhead : headerLoop rest = some ([], rest))
    (hend : endIndices [] rest = some (e, e'))
    (htrailer : rest.drop e' = type ++ pemEndOfLine ++ 10 :: after)
    (hbytes : Base64.decode (removeSpacesAndTabs (rest.take e)) = some bytes)
    (hafter : (getLine (rest.drop (e + pemEnd.length - 1))).2 = after) :
    decodeBody afterMarker = .block ⟨type, [], bytes⟩ after := by
  have hsuffix : pemEndOfLine.isSuffixOf (type ++ pemEndOfLine) = true :=
    List.isSuffixOf_iff_suffix.mpr (List.suffix_append _ _)
  have hprefix : type.isPrefixOf (type ++ pemEndOfLine) = true :=
    List.isPrefixOf_iff_prefix.mpr (List.prefix_append _ _)
  have hlen : (type ++ pemEndOfLine).length = type.length + pemEndOfLine.length :=
    List.length_append _ _
  have hdrop : (type ++ pemEndOfLine ++ 10 :: after).drop (type.length + pemEndOfLine.length) =
      10 :: after := by rw [← hlen]; exact List.drop_left' rfl
  have htake : (type ++ pemEndOfLine ++ 10 :: after).take (type.length + pemEndOfLine.length) =
      type ++ pemEndOfLine := by rw [← hlen]; exact List.take_left' rfl
  have hlong : ¬ (type ++ pemEndOfLine ++ 10 :: after).length < type.length + pemEndOfLine.length :=
    by simp
  unfold decodeBody
  simp only [hline, hsuffix, Bool.not_true, Bool.false_eq_true, if_false, hlen,
    Nat.add_sub_cancel, List.take_left' rfl, hhead, hend, htrailer, hlong, hdrop, htake, hprefix,
    Bool.true_and]
  simp [getLine_newline, hbytes, hafter]

/-- The line after the BEGIN marker of an encoded block is its type line. -/
theorem getLine_typeLine {type : List UInt8} (rest : List UInt8) (hnl : 10 ∉ type) :
    getLine (type ++ pemEndOfLine ++ 10 :: rest) = (type ++ pemEndOfLine, rest) := by
  refine getLine_append ?_ ?_ (show (45 : UInt8) ≠ 13 ∧ isSpaceTab 45 = false by decide)
  · simp only [List.mem_append, hnl, false_or]; decide
  · rw [List.getLast?_append]; rfl

theorem decodeBody_encode (type bytes after : List UInt8) (hnl : 10 ∉ type) (hcolon : 58 ∉ type) :
    decodeBody (type ++ pemEndOfLine ++ 10 ::
      (lineBreak 0 (Base64.encode bytes) ++ pemEnd.drop 1 ++ (type ++ pemEndOfLine ++ 10 :: after))) =
      .block ⟨type, [], bytes⟩ after := by
  have hclose : ∀ pre : List UInt8, 10 ∉ pre →
      (getLine (pre ++ type ++ pemEndOfLine ++ 10 :: after)).2 = after := fun pre hpre =>
    congrArg Prod.snd (@getLine_typeLine (pre ++ type) after
      (by simp only [List.mem_append, hpre, hnl, or_self, not_false_eq_true]))
  have hhead : headerLoop (lineBreak 0 (Base64.encode bytes) ++ pemEnd.drop 1 ++
      (type ++ pemEndOfLine ++ 10 :: after)) = some ([], lineBreak 0 (Base64.encode bytes) ++
        pemEnd.drop 1 ++ (type ++ pemEndOfLine ++ 10 :: after)) := by
    have hcol : 58 ∉ lineBreak 0 (Base64.encode bytes) ++ pemEnd.drop 1 ++
        (type ++ pemEndOfLine ++ [10]) := by
      simp only [List.mem_append, not_or]
      exact ⟨⟨fun h => (mem_body h).2.1 rfl, by decide⟩, ⟨hcolon, by decide⟩, by decide⟩
    have h10 : 10 ∈ lineBreak 0 (Base64.encode bytes) ++ pemEnd.drop 1 ++
        (type ++ pemEndOfLine ++ [10]) := by simp
    rw [show type ++ pemEndOfLine ++ 10 :: after = type ++ pemEndOfLine ++ [10] ++ after by simp,
      ← List.append_assoc]
    exact headerLoop_of_no_colon (by simp [pemEnd, ascii])
      fun hm => hcol ((getLine_fst_sublist_of_mem h10).subset hm)
  rcases eq_or_ne bytes [] with rfl | hb
  · refine @decodeBody_of_parts _ _ type [] after 0 (pemEnd.length - 1) (getLine_typeLine _ hnl)
      hhead ?_ (List.drop_left' rfl) rfl (hclose [] (by simp))
    exact if_pos ⟨rfl, List.isPrefixOf_iff_prefix.mpr (List.prefix_append _ _)⟩
  · obtain ⟨init, hinit⟩ := lineBreak_ends 0 (mt Base64.encode_eq_nil.mp hb)
    have hmem : ∀ c ∈ init, c ≠ 45 ∧ c ≠ 58 ∧ isSpaceTab c = false := fun c hc =>
      @mem_body bytes c (hinit ▸ List.mem_append_left _ hc)
    have hrest : lineBreak 0 (Base64.encode bytes) ++ pemEnd.drop 1 ++
        (type ++ pemEndOfLine ++ 10 :: after) =
          init ++ pemEnd ++ (type ++ pemEndOfLine ++ 10 :: after) := by
      rw [hinit, pemEnd_eq]; simp
    have h45 : 45 ∉ init := fun h => (hmem 45 h).1 rfl
    rw [hrest] at hhead ⊢
    refine @decodeBody_of_parts _ _ type bytes after init.length (init.length + pemEnd.length)
      (getLine_typeLine _ hnl) hhead ?_ ?_ ?_ ?_
    · have hnot : (pemEnd.drop 1).isPrefixOf
          (init ++ pemEnd ++ (type ++ pemEndOfLine ++ 10 :: after)) = false := by
        cases init with
        | nil => rfl
        | cons x xs =>
          have hx : x ≠ 45 := (hmem x (List.mem_cons_self _ _)).1
          rw [show pemEnd.drop 1 = 45 :: pemEnd.drop 2 from rfl]
          simp [List.isPrefixOf_cons₂, Ne.symm hx]
      simp only [endIndices, hnot, Bool.false_eq_true, and_false, if_false, index_pemEnd _ h45,
        Option.map_some']
    · rw [List.append_assoc, List.drop_append]; exact List.drop_left' rfl
    · have hfilter : init.filter (fun c => !Base64.isNewline c) = Base64.encode bytes := by
        have henc : (Base64.encode bytes).filter (fun c => !Base64.isNewline c) =
            Base64.encode bytes :=
          List.filter_eq_self.mpr fun c hc => by simp [Base64.encode_no_newline bytes c hc]
        have h10 : [(10 : UInt8)].filter (fun c => !Base64.isNewline c) = [] := rfl
        have := lineBreak_filter 0 (Base64.encode bytes)
        rwa [hinit, List.filter_append, henc, h10, List.append_nil] at this
      rw [List.append_assoc, List.take_left' rfl, removeSpacesAndTabs,
        List.filter_eq_self.mpr (fun c hc => by simp [(hmem c hc).2.2])]
      exact Base64.decode_of_filter_eq_encode hfilter
    · rw [List.append_assoc, show init.length + pemEnd.length - 1 = init.length + 9 from rfl,
        List.drop_append, List.drop_append_eq_append_drop]
      simpa using hclose [32] (by decide)

/-- **Round trip**: a block without headers whose type has no newline and no colon decodes back
from its encoding, and what follows the encoding is left over. -/
theorem decode_encode_append (type bytes after : List UInt8) (hnl : 10 ∉ type)
    (hcolon : 58 ∉ type) :
    decode (encode type bytes ++ after) = (some ⟨type, [], bytes⟩, after) := by
  have hsplit : encode type bytes ++ after = pemStart.drop 1 ++ (type ++ pemEndOfLine ++ 10 ::
      (lineBreak 0 (Base64.encode bytes) ++ pemEnd.drop 1 ++
        (type ++ pemEndOfLine ++ 10 :: after))) := by
    simp only [encode, List.append_assoc]; rfl
  have hbegin : afterBegin (encode type bytes ++ after) = some (type ++ pemEndOfLine ++ 10 ::
      (lineBreak 0 (Base64.encode bytes) ++ pemEnd.drop 1 ++
        (type ++ pemEndOfLine ++ 10 :: after))) := by
    rw [hsplit, afterBegin, if_pos (List.isPrefixOf_iff_prefix.mpr (List.prefix_append _ _))]
    exact congrArg some (List.drop_left' rfl)
  rw [decode_eq, hbegin]
  simp only [decodeBody_encode type bytes after hnl hcolon]

theorem decode_encode (type bytes : List UInt8) (hnl : 10 ∉ type) (hcolon : 58 ∉ type) :
    decode (encode type bytes) = (some ⟨type, [], bytes⟩, []) := by
  simpa using decode_encode_append type bytes [] hnl hcolon

/-- Bytes in which no BEGIN marker stands decode to `nil` and themselves. -/
theorem decode_of_afterBegin_none {data : List UInt8} (h : afterBegin data = none) :
    decode data = (none, data) := by
  rw [decode_eq, h]

end MachineController.Encoding.Pem
