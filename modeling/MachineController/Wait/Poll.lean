import MachineController.Go.Basic

/-!
# MachineController.Wait.Poll — `wait.Poll` of `k8s.io/apimachinery`, with time

`wait.Poll(interval, timeout, condition)` runs `WaitFor` on the channel of `poller`: a goroutine
with a ticker every `interval` and a timer at `timeout`.  On a tick the goroutine tries a
non-blocking send, which reaches `WaitFor` only if it is waiting; on the timer it closes the
channel.  `WaitFor` calls the condition once per value it receives, **and once more when the
channel is closed**, and stops at the first call that returns true (nil) or an error (that
error); after the closing call it returns `ErrWaitTimeout`.

Time is discrete.  The ticker starts before the timer, so a tick due at `timeout` comes first.
`cond i t` is the `i`-th call of the condition, started at `t`: its answer and how long it takes.

* `waitFor_calls`: the calls made, with their start times, answers and durations: one runs at a
  time; every call but the last answered `false` at a tick no later than `timeout`; no tick at
  which the consumer is waiting is skipped; a last call that answered `false` is the closing
  one, after the timer; the result is read off the last call;
* `waitFor_length_le`: at most one call per tick, and one after the timer.
-/

namespace MachineController.Wait

/-- How `WaitFor` ends: `nil` (the condition returned true), the condition's error, or
`ErrWaitTimeout`. -/
inductive PollResult
  | done
  | failed (err : String)
  | waitTimeout
deriving DecidableEq, Repr

/-- A call of the condition: when it started, what it returned and how long it took. -/
structure CondCall where
  start : Nat
  result : Except String Bool
  took : Nat
deriving DecidableEq, Repr

/-- Whether `WaitFor` stops on the condition's answer: on an error or on true. -/
def ended : Except String Bool → Option PollResult
  | .error e => some (.failed e)
  | .ok true => some .done
  | .ok false => none

@[simp] theorem ended_eq_none (r : Except String Bool) : ended r = none ↔ r = .ok false := by
  rcases r with e | _ | _ <;> simp [ended]

theorem ended_getD_done (r : Except String Bool) :
    (ended r).getD .waitTimeout = .done ↔ r = .ok true := by
  rcases r with e | _ | _ <;> simp [ended]

theorem ended_getD_waitTimeout (r : Except String Bool) :
    (ended r).getD .waitTimeout = .waitTimeout ↔ r = .ok false := by
  rcases r with e | _ | _ <;> simp [ended]

/-- A tick after a tick is at least one interval later. -/
theorem add_le_of_dvd {interval tick t : Nat} (htick : interval ∣ tick) (ht : interval ∣ t)
    (hlt : tick < t) : tick + interval ≤ t := by
  have := Nat.le_of_dvd (by omega) (Nat.dvd_sub' ht htick)
  omega

section Loop

variable (interval timeout : Nat) (cond : Nat → Nat → Except String Bool × Nat)

/-- The `i`-th call of the condition, started at `t`. -/
def callAt (i t : Nat) : CondCall := ⟨t, (cond i t).1, (cond i t).2⟩

/-- `WaitFor` driven by `poller`: `n` ticks are left before the timer, the next at `tick`; the
consumer waits from `ready` on and has called the condition `i` times.  When the ticks run out
the channel is closed, and the consumer makes its last call once it is waiting and the timer
has fired. -/
def waitFor : (n tick ready i : Nat) → PollResult × List CondCall
  | 0, _, ready, i =>
    let c := callAt cond i (max ready timeout)
    ((ended c.result).getD .waitTimeout, [c])
  | n + 1, tick, ready, i =>
    if ready ≤ tick then
      let c := callAt cond i tick
      match ended c.result with
      | some res => (res, [c])
      | none =>
        let rest := waitFor n (tick + interval) (tick + c.took) (i + 1)
        (rest.1, c :: rest.2)
    else waitFor n (tick + interval) ready i

/-- `wait.Poll(interval, timeout, condition)`: the ticks at `interval, 2·interval, …` up to
`timeout`, the consumer waiting from the start. -/
def poll : PollResult × List CondCall :=
  waitFor interval timeout cond (timeout / interval) interval 0 0

/-- What the calls of a run of `WaitFor` satisfy when its ticks are the multiples of `interval`
from `tick` up to `timeout` and the consumer waits from `ready` on: the `j`-th call is the
condition's `i + j`-th; one call runs at a time, the first from `ready` on; every call but the
last answered `false` at one of the ticks; the consumer is called at every tick at which it is
waiting; a last call that answered `false` is the closing one; the result is the last call's. -/
structure CallsSpec (tick ready i : Nat) (run : PollResult × List CondCall) : Prop where
  ne_nil : run.2 ≠ []
  answers : ∀ j (h : j < run.2.length), run.2[j] = callAt cond (i + j) run.2[j].start
  first : ∀ c ∈ run.2.head?, ready ≤ c.start
  sequential : run.2.Chain' fun c d => c.start + c.took ≤ d.start
  early : ∀ c ∈ run.2.dropLast,
    c.result = .ok false ∧ interval ∣ c.start ∧ tick ≤ c.start ∧ c.start ≤ timeout
  every_tick : ∀ t, interval ∣ t → tick ≤ t → t ≤ timeout → ready ≤ t →
    (∀ c ∈ run.2, c.start < t → c.result = .ok false ∧ c.start + c.took ≤ t) →
    ∃ c ∈ run.2, c.start = t
  closing : ∀ c ∈ run.2.getLast?, c.result = .ok false → timeout ≤ c.start
  result : ∀ c ∈ run.2.getLast?, run.1 = (ended c.result).getD .waitTimeout

variable {interval timeout cond}

/-- Every call of a run but the last answered `false`. -/
theorem CallsSpec.result_of_lt {tick ready i : Nat} {run : PollResult × List CondCall}
    (h : CallsSpec interval timeout cond tick ready i run) {j : Nat} (hj : j + 1 < run.2.length) :
    run.2[j].result = .ok false :=
  (h.early _ (by
    rw [← List.getElem_dropLast run.2 j (by rw [List.length_dropLast]; omega)]
    exact List.getElem_mem _)).1

/-- The last call of a run decides its result. -/
theorem CallsSpec.result_last {tick ready i : Nat} {run : PollResult × List CondCall}
    (h : CallsSpec interval timeout cond tick ready i run) {j : Nat} (hj : j < run.2.length)
    (hlast : j + 1 = run.2.length) : run.1 = (ended run.2[j].result).getD .waitTimeout :=
  h.result _ (by
    rw [List.getLast?_eq_getElem?, List.getElem?_eq_getElem (by omega)]
    simp only [show run.2.length - 1 = j by omega, Option.mem_def])

/-- A run of one call, at `t`: the closing call, or the first that stops the loop.  No tick
between `tick` and `timeout` other than `t` can leave the consumer waiting. -/
theorem callsSpec_single {tick ready i t : Nat} (hready : ready ≤ t)
    (hclosing : (callAt cond i t).result = .ok false → timeout ≤ t)
    (hticks : ∀ u, tick ≤ u → u ≤ timeout → u = t ∨ t < u ∧ (callAt cond i t).result ≠ .ok false) :
    CallsSpec interval timeout cond tick ready i
      ((ended (callAt cond i t).result).getD .waitTimeout, [callAt cond i t]) := by
  refine ⟨List.cons_ne_nil _ _, fun j hj => ?_, fun c hc => ?_, List.chain'_singleton _,
    fun c hc => by simp at hc, fun u _ hu hu' _ hwait => ?_, fun c hc => ?_, fun c hc => ?_⟩
  · obtain rfl : j = 0 := by simpa using hj
    rfl
  · obtain rfl := Option.mem_some_iff.mp hc
    exact hready
  · rcases hticks u hu hu' with rfl | ⟨hlt, hstop⟩
    · exact ⟨_, List.mem_singleton_self _, rfl⟩
    · exact absurd (hwait _ (List.mem_singleton_self _) hlt).1 hstop
  · obtain rfl := Option.mem_some_iff.mp hc
    exact hclosing
  · obtain rfl := Option.mem_some_iff.mp hc
    rfl

/-- A call at `tick` that answered `false`, followed by a run from the next tick, the consumer
waiting again once the call has returned. -/
theorem callsSpec_call {tick ready i : Nat} {rest : PollResult × List CondCall}
    (hready : ready ≤ tick) (hdvd : interval ∣ tick) (htick : tick ≤ timeout)
    (hfalse : (callAt cond i tick).result = .ok false)
    (h : CallsSpec interval timeout cond (tick + interval) (tick + (callAt cond i tick).took) (i + 1)
      rest) :
    CallsSpec interval timeout cond tick ready i (rest.1, callAt cond i tick :: rest.2) := by
  obtain ⟨hne, hans, hfirst, hseq, hearly, hevery, hclosing, hres⟩ := h
  have hlast : (callAt cond i tick :: rest.2).getLast? = rest.2.getLast? := by
    obtain ⟨d, ds, hds⟩ := List.exists_cons_of_ne_nil hne
    rw [hds, List.getLast?_cons_cons]
  refine ⟨List.cons_ne_nil _ _, fun j hj => ?_, fun c hc => ?_, hseq.cons' hfirst,
    fun c hc => ?_, fun t ht htick' ht' hready' hwait => ?_, fun c hc => hclosing c (hlast ▸ hc),
    fun c hc => hres c (hlast ▸ hc)⟩
  · cases j with
    | zero => rfl
    | succ j =>
      simp only [List.getElem_cons_succ]
      rw [show i + (j + 1) = i + 1 + j by omega]
      exact hans j _
  · obtain rfl := Option.mem_some_iff.mp hc
    exact hready
  · rw [List.dropLast_cons_of_ne_nil hne, List.mem_cons] at hc
    rcases hc with rfl | hc
    · exact ⟨hfalse, hdvd, le_rfl, htick⟩
    · obtain ⟨h1, h2, h3, h4⟩ := hearly c hc
      exact ⟨h1, h2, by omega, h4⟩
  · rcases Nat.eq_or_lt_of_le htick' with rfl | hlt
    · exact ⟨_, List.mem_cons_self _ _, rfl⟩
    · obtain ⟨c, hc, hct⟩ := hevery t ht (add_le_of_dvd hdvd ht hlt) ht'
        (hwait _ (List.mem_cons_self _ _) hlt).2 fun c hc => hwait c (List.mem_cons_of_mem _ hc)
      exact ⟨c, List.mem_cons_of_mem _ hc, hct⟩

/-- A tick at which the consumer is still busy is dropped. -/
theorem callsSpec_skip {tick ready i : Nat} {run : PollResult × List CondCall}
    (hbusy : ¬ ready ≤ tick) (hdvd : interval ∣ tick)
    (h : CallsSpec interval timeout cond (tick + interval) ready i run) :
    CallsSpec interval timeout cond tick ready i run := by
  refine { h with early := fun c hc => ?_, every_tick := fun t ht htick ht' hready hwait => ?_ }
  · obtain ⟨h1, h2, h3, h4⟩ := h.early c hc
    exact ⟨h1, h2, by omega, h4⟩
  · rcases Nat.eq_or_lt_of_le htick with rfl | hlt
    · exact absurd hready hbusy
    · exact h.every_tick t ht (add_le_of_dvd hdvd ht hlt) ht' hready hwait

/-- **Every run of `WaitFor`** meets `CallsSpec`, when its `n` ticks left are the multiples of
`interval` from `tick` up to `timeout`. -/
theorem waitFor_calls : ∀ n tick ready i, interval ∣ tick → timeout < tick + n * interval →
    tick + n * interval ≤ timeout + interval →
    CallsSpec interval timeout cond tick ready i (waitFor interval timeout cond n tick ready i)
  | 0, tick, ready, i, _, hcover, _ =>
    callsSpec_single (le_max_left _ _) (fun _ => le_max_right _ _) fun u hu hu' => by omega
  | n + 1, tick, ready, i, hdvd, hcover, hlast => by
    rw [Nat.succ_mul] at hcover hlast
    have hrest : ∀ ready' i', CallsSpec interval timeout cond (tick + interval) ready' i'
        (waitFor interval timeout cond n (tick + interval) ready' i') := fun ready' i' =>
      waitFor_calls n _ ready' i' (Nat.dvd_add hdvd dvd_rfl) (by omega) (by omega)
    simp only [waitFor]
    split_ifs with hready
    · split
      · next res hres =>
        have hstop : (callAt cond i tick).result ≠ .ok false := fun h => by simp [h, ended] at hres
        rw [show res = (ended (callAt cond i tick).result).getD .waitTimeout by rw [hres]; rfl]
        exact callsSpec_single hready (fun h => absurd h hstop) fun u hu _ =>
          (Nat.eq_or_lt_of_le hu).imp Eq.symm fun hlt => ⟨hlt, hstop⟩
      · next hnone =>
        exact callsSpec_call hready hdvd (by omega) ((ended_eq_none _).mp hnone) (hrest _ _)
    · exact callsSpec_skip hready hdvd (hrest _ _)

/-- `WaitFor` calls the condition at most once per tick left, and once more after the channel
closes. -/
theorem waitFor_length_le : ∀ n tick ready i,
    (waitFor interval timeout cond n tick ready i).2.length ≤ n + 1
  | 0, _, _, _ => le_rfl
  | n + 1, tick, ready, i => by
    simp only [waitFor]
    split
    · split
      · simp
      · simpa using waitFor_length_le n _ _ (i + 1)
    · exact (waitFor_length_le n _ _ i).trans (Nat.le_succ _)

/-- The ticks of `wait.Poll` are `interval, 2·interval, …` up to `timeout`. -/
theorem poll_calls (hpos : 0 < interval) :
    CallsSpec interval timeout cond interval 0 0 (poll interval timeout cond) :=
  waitFor_calls _ _ _ _ dvd_rfl (by have := @Nat.lt_div_mul_add timeout interval hpos; omega)
    (by have := Nat.div_mul_le_self timeout interval; omega)

end Loop

end MachineController.Wait
