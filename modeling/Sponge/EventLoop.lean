import Mathlib.Data.List.Basic
import Mathlib.Data.UInt
import Mathlib.Tactic.Common

/-!
# Event Loop

Model of `util/eventloop.hh` and `eventloop.cc`, and of what they use of `file_descriptor.hh`:
a list of rules, each with a descriptor to poll and a callback, and the function
`wait_next_event` that polls once and runs the callbacks of the ready rules.

## Modelling notes

- The functions of a rule are closures over an object.  They are functions of its state `σ` here,
  and so is the descriptor, which the rule shares with the object.
- `ι` is what the system calls of a callback answer, `ε` what the callback may throw.
- A descriptor is its flags and its counters.
- `poll` may report anything.  When it fails for a reason other than a signal, the error is
  swallowed and nothing is reported.
-/

namespace Sponge

/-- `FileDescriptor` -/
structure FileDescriptor where
  eof : Bool := false
  closed : Bool := false
  readCount : UInt32 := 0
  writeCount : UInt32 := 0
  deriving DecidableEq, Repr

namespace EventLoop

/-- `EventLoop::Direction` -/
inductive Direction where
  | In | Out
  deriving DecidableEq, Repr

/-- `EventLoop::Result` -/
inductive Result where
  | Success | Timeout | Exit
  deriving DecidableEq, Repr

/-- What `wait_next_event` may throw. -/
inductive LoopException (ε : Type) where
  /-- "error on polled file descriptor" -/
  | polledError
  /-- "busy wait detected" -/
  | busyWait
  /-- an exception of a callback -/
  | thrown (e : ε)
  deriving DecidableEq, Repr

/-- `EventLoop::Rule` -/
structure Rule (σ ι ε : Type) where
  fd : σ → FileDescriptor
  direction : Direction
  callback : ι → σ → Except ε σ
  interest : σ → Bool
  cancel : σ → σ := id

variable {σ ι ε : Type}

/-- `service_count()` -/
def Rule.serviceCount (rule : Rule σ ι ε) (s : σ) : UInt32 :=
  if rule.direction = .In then (rule.fd s).readCount else (rule.fd s).writeCount

/-! ## §1 One pass -/

/-- The loop that sets up the `pollfd`s.  A rule whose descriptor is at its end is cancelled and
    erased; of the others it is recorded whether they are interested. -/
def prepare : List (Rule σ ι ε) → σ → List (Rule σ ι ε × Bool) × σ
  | [], s => ([], s)
  | rule :: rules, s =>
    if rule.direction = .In ∧ (rule.fd s).eof then prepare rules (rule.cancel s)
    else if (rule.fd s).closed then prepare rules (rule.cancel s)
    else
      let (polled, s') := prepare rules s
      ((rule, rule.interest s) :: polled, s')

/-- The descriptor of the rule is of no more use. -/
def Rule.Defunct (rule : Rule σ ι ε) (s : σ) : Prop :=
  (rule.direction = .In ∧ (rule.fd s).eof = true) ∨ (rule.fd s).closed = true

theorem prepare_of_defunct {rule : Rule σ ι ε} {s : σ} (h : rule.Defunct s)
    (rules : List (Rule σ ι ε)) : prepare (rule :: rules) s = prepare rules (rule.cancel s) := by
  rw [prepare]
  rcases h with heof | hclosed
  · rw [if_pos heof]
  · rw [if_pos hclosed, ite_self]

theorem prepare_of_not_defunct {rule : Rule σ ι ε} {s : σ} (h : ¬ rule.Defunct s)
    (rules : List (Rule σ ι ε)) : prepare (rule :: rules) s =
      ((rule, rule.interest s) :: (prepare rules s).1, (prepare rules s).2) := by
  rw [prepare, if_neg fun heof => h (.inl heof), if_neg fun hclosed => h (.inr hclosed)]

/-- What `poll` reports in one `revents`. -/
structure Revents where
  /-- the event that the rule stands for -/
  event : Bool := false
  /-- `POLLHUP` -/
  hup : Bool := false
  /-- `POLLERR` or `POLLNVAL` -/
  error : Bool := false
  deriving DecidableEq, Repr

/-- What happens to the call of `poll`. -/
inductive Poll (ι : Type) where
  | timeout
  /-- `EINTR` -/
  | interrupted
  /-- the reports, and the answers to the system calls of the callbacks, by position -/
  | reported (revents : ℕ → Revents) (answers : ℕ → ι)

/-- The callback of a ready rule, and the test for busy waiting. -/
def Rule.serve (rule : Rule σ ι ε) (answer : ι) (s : σ) : Except (LoopException ε) σ :=
  match rule.callback answer s with
  | .error e => .error (.thrown e)
  | .ok s' =>
    if rule.serviceCount s = rule.serviceCount s' ∧ rule.interest s' then .error .busyWait
    else .ok s'

/-- The poll result of one rule.  Returns whether the rule stays. -/
def Rule.handle (rule : Rule σ ι ε) (events : Bool) (revents : Revents) (answer : ι) (s : σ) :
    Except (LoopException ε) (Bool × σ) :=
  if revents.error then .error .polledError
  else
    -- only the events that were asked for count
    let pollReady := events && revents.event
    if revents.hup && events && !pollReady then .ok (false, rule.cancel s)
    else if pollReady then (rule.serve answer s).map fun s => (true, s)
    else .ok (true, s)

/-- The loop that goes through the poll results, from position `idx` on. -/
def dispatch (revents : ℕ → Revents) (answers : ℕ → ι) :
    ℕ → List (Rule σ ι ε × Bool) → σ → Except (LoopException ε) (List (Rule σ ι ε) × σ)
  | _, [], s => .ok ([], s)
  | idx, (rule, events) :: polled, s => do
    let (stays, s) ← rule.handle events (revents idx) (answers idx) s
    let (rules, s) ← dispatch revents answers (idx + 1) polled s
    return (if stays then rule :: rules else rules, s)

/-- `wait_next_event(timeout_ms)` -/
def waitNextEvent (rules : List (Rule σ ι ε)) (s : σ) (poll : Poll ι) :
    Except (LoopException ε) (Result × List (Rule σ ι ε) × σ) :=
  let (polled, s) := prepare rules s
  -- quit if there is nothing left to poll
  if !polled.any Prod.snd then .ok (.Exit, polled.map Prod.fst, s)
  else
    match poll with
    | .timeout => .ok (.Timeout, polled.map Prod.fst, s)
    | .interrupted => .ok (.Exit, polled.map Prod.fst, s)
    | .reported revents answers => do
      let (rules, s) ← dispatch revents answers 0 polled s
      return (.Success, rules, s)

/-! ## §2 What a pass preserves -/

section Invariant

variable {I : σ → Prop} {revents : ℕ → Revents} {answers : ℕ → ι}

/-- The rules that are polled are installed ones, and an invariant of the `cancel` functions
    is kept. -/
theorem prepare_invariant {rules : List (Rule σ ι ε)}
    (hcancel : ∀ rule ∈ rules, ∀ s, I s → I (rule.cancel s)) {s : σ} (hs : I s) :
    ((prepare rules s).1.map Prod.fst).Sublist rules ∧ I (prepare rules s).2 := by
  induction rules generalizing s with
  | nil => exact ⟨.slnil, hs⟩
  | cons rule rules ih =>
    have hrest : ∀ rule ∈ rules, ∀ s, I s → I (rule.cancel s) :=
      fun rule hmem => hcancel rule (List.mem_cons_of_mem _ hmem)
    have hfirst := hcancel rule List.mem_cons_self
    by_cases hdefunct : rule.Defunct s
    · rw [prepare_of_defunct hdefunct]
      obtain ⟨hsub, hI⟩ := ih hrest (hfirst s hs)
      exact ⟨hsub.cons rule, hI⟩
    · rw [prepare_of_not_defunct hdefunct]
      obtain ⟨hsub, hI⟩ := ih hrest hs
      exact ⟨hsub.cons_cons rule, hI⟩

/-- What `handle` does to the state. -/
theorem handle_cases {rule : Rule σ ι ε} {events : Bool} {rev : Revents} {a : ι} {s t : σ}
    {stays : Bool} (h : rule.handle events rev a s = .ok (stays, t)) :
    (stays = false ∧ t = rule.cancel s) ∨ (stays = true ∧ t = s) ∨
      (stays = true ∧ events = true ∧ rev.event = true ∧ rule.callback a s = .ok t) := by
  unfold Rule.handle Rule.serve at h
  split at h
  · cases h
  · dsimp only at h
    split at h
    · cases h
      exact .inl ⟨rfl, rfl⟩
    · split at h
      · rename_i hready
        rw [Bool.and_eq_true] at hready
        split at h
        · cases h
        · rename_i s' hcallback
          split at h
          · cases h
          · cases h
            exact .inr (.inr ⟨rfl, hready.1, hready.2, hcallback⟩)
      · cases h
        exact .inr (.inl ⟨rfl, rfl⟩)

theorem error_of_handle {rule : Rule σ ι ε} {events : Bool} {rev : Revents} {a : ι} {s : σ}
    {result : Bool × σ} (h : rule.handle events rev a s = .ok result) : rev.error = false := by
  unfold Rule.handle at h
  split at h
  · cases h
  · rename_i herror
    simpa using herror

/-- A ready rule whose callback returns and that is not interested any more. -/
theorem handle_of_ready {rule : Rule σ ι ε} {rev : Revents} {a : ι} {s t : σ}
    (herror : rev.error = false) (hevent : rev.event = true) (hcallback : rule.callback a s = .ok t)
    (hinterest : rule.interest t = false) : rule.handle true rev a s = .ok (true, t) := by
  simp [Rule.handle, Rule.serve, herror, hevent, hcallback, hinterest, Except.map]

/-- The exceptions of a callback and those of the loop do not mix. -/
theorem serve_eq_thrown_iff {rule : Rule σ ι ε} {a : ι} {s : σ} {e : ε} :
    rule.serve a s = .error (.thrown e) ↔ rule.callback a s = .error e := by
  unfold Rule.serve
  cases rule.callback a s with
  | error e' => simp
  | ok s' =>
    dsimp only
    split <;> simp

/-- An exception of a callback leaves the loop when the rule is ready. -/
theorem handle_eq_thrown_iff {rule : Rule σ ι ε} {events : Bool} {rev : Revents} {a : ι} {s : σ}
    {e : ε} : rule.handle events rev a s = .error (.thrown e) ↔
      rev.error = false ∧ events = true ∧ rev.event = true ∧ rule.callback a s = .error e := by
  rw [← serve_eq_thrown_iff]
  unfold Rule.handle
  cases rev.error with
  | true => simp
  | false =>
    cases events with
    | false => simp
    | true =>
      cases rev.event with
      | false =>
        simp only [Bool.and_false, Bool.false_eq_true, if_false]
        split <;> simp
      | true => cases rule.serve a s <;> simp [Except.map]

theorem dispatch_cons (rule : Rule σ ι ε) (events : Bool) (polled : List (Rule σ ι ε × Bool))
    (idx : ℕ) (s : σ) : dispatch revents answers idx ((rule, events) :: polled) s =
      match rule.handle events (revents idx) (answers idx) s with
      | .error e => .error e
      | .ok (stays, s') =>
        match dispatch revents answers (idx + 1) polled s' with
        | .error e => .error e
        | .ok (rules, t) => .ok (if stays then rule :: rules else rules, t) := by
  rw [dispatch]
  cases rule.handle events (revents idx) (answers idx) s with
  | error e => rfl
  | ok result =>
    obtain ⟨stays, s'⟩ := result
    cases hrest : dispatch revents answers (idx + 1) polled s' <;>
      simp [hrest, bind, Except.bind, pure, Except.pure]

theorem dispatch_invariant {polled : List (Rule σ ι ε × Bool)}
    (hcancel : ∀ p ∈ polled, ∀ s, I s → I (p.1.cancel s))
    (hcallback : ∀ p ∈ polled, ∀ a s t, I s → p.1.callback a s = .ok t → I t)
    {idx : ℕ} {s t : σ} {rules : List (Rule σ ι ε)}
    (h : dispatch revents answers idx polled s = .ok (rules, t)) (hs : I s) :
    rules.Sublist (polled.map Prod.fst) ∧ I t := by
  induction polled generalizing idx s rules with
  | nil =>
    cases h
    exact ⟨.slnil, hs⟩
  | cons p polled ih =>
    obtain ⟨rule, events⟩ := p
    rw [dispatch_cons] at h
    split at h
    · cases h
    · rename_i stays s' hhandle
      split at h
      · cases h
      · rename_i rules' t' hrest
        cases h
        have hs' : I s' := by
          rcases handle_cases hhandle with ⟨-, rfl⟩ | ⟨-, rfl⟩ | ⟨-, -, -, hrun⟩
          · exact hcancel _ List.mem_cons_self s hs
          · exact hs
          · exact hcallback _ List.mem_cons_self _ _ _ hs hrun
        obtain ⟨hsub, hI⟩ := ih (fun p hmem => hcancel p (List.mem_cons_of_mem _ hmem))
          (fun p hmem => hcallback p (List.mem_cons_of_mem _ hmem)) hrest hs'
        refine ⟨?_, hI⟩
        cases stays with
        | false => exact hsub.cons rule
        | true => exact hsub.cons_cons rule

/-- **What a pass preserves.**  Rules are only erased, and an invariant of all the callbacks and
    `cancel` functions is kept. -/
theorem waitNextEvent_invariant {rules rules' : List (Rule σ ι ε)}
    (hcancel : ∀ rule ∈ rules, ∀ s, I s → I (rule.cancel s))
    (hcallback : ∀ rule ∈ rules, ∀ a s t, I s → rule.callback a s = .ok t → I t)
    {s t : σ} {poll : Poll ι} {result : Result}
    (h : waitNextEvent rules s poll = .ok (result, rules', t)) (hs : I s) :
    rules'.Sublist rules ∧ I t := by
  obtain ⟨hsub, hI⟩ := prepare_invariant hcancel hs
  unfold waitNextEvent at h
  generalize prepare rules s = prepared at h hsub hI
  obtain ⟨polled, s'⟩ := prepared
  dsimp only at h hsub hI
  split at h
  · cases h
    exact ⟨hsub, hI⟩
  · cases poll with
    | timeout =>
      cases h
      exact ⟨hsub, hI⟩
    | interrupted =>
      cases h
      exact ⟨hsub, hI⟩
    | reported revents answers =>
      cases hdispatch : dispatch revents answers 0 polled s' with
      | error e => simp [hdispatch, bind, Except.bind] at h
      | ok done =>
        obtain ⟨rules'', t'⟩ := done
        simp only [hdispatch, bind, Except.bind, pure, Except.pure, Except.ok.injEq,
          Prod.mk.injEq] at h
        obtain ⟨-, rfl, rfl⟩ := h
        have hmem : ∀ p ∈ polled, p.1 ∈ rules :=
          fun p hp => hsub.subset (List.mem_map_of_mem hp)
        obtain ⟨hsub', hI'⟩ := dispatch_invariant (fun p hp => hcancel _ (hmem p hp))
          (fun p hp => hcallback _ (hmem p hp)) hdispatch hI
        exact ⟨hsub'.trans hsub, hI'⟩

end Invariant

/-! ## §3 Where an exception comes from -/

section Exceptions

variable {revents : ℕ → Revents} {answers : ℕ → ι} {e : ε}

/-- An exception of a callback is the one of the first rule, or of a later one. -/
theorem dispatch_cons_thrown_iff {rule : Rule σ ι ε} {events : Bool}
    {polled : List (Rule σ ι ε × Bool)} {idx : ℕ} {s : σ} :
    dispatch revents answers idx ((rule, events) :: polled) s = .error (.thrown e) ↔
      rule.handle events (revents idx) (answers idx) s = .error (.thrown e) ∨
      ∃ stays s', rule.handle events (revents idx) (answers idx) s = .ok (stays, s') ∧
        dispatch revents answers (idx + 1) polled s' = .error (.thrown e) := by
  rw [dispatch_cons]
  cases hhandle : rule.handle events (revents idx) (answers idx) s with
  | error e' => simp
  | ok result =>
    obtain ⟨stays, s'⟩ := result
    cases hrest : dispatch revents answers (idx + 1) polled s' with
    | error e' => simp [hrest]
    | ok done => simp [hrest]

/-- An exception that no callback throws does not leave the loop. -/
theorem dispatch_ne_thrown {polled : List (Rule σ ι ε × Bool)}
    (hcallback : ∀ p ∈ polled, ∀ a s, p.1.callback a s ≠ .error e) {idx : ℕ} {s : σ} :
    dispatch revents answers idx polled s ≠ .error (.thrown e) := by
  induction polled generalizing idx s with
  | nil => simp [dispatch]
  | cons p polled ih =>
    obtain ⟨rule, events⟩ := p
    rw [Ne, dispatch_cons_thrown_iff, handle_eq_thrown_iff]
    rintro (⟨-, -, -, hthrow⟩ | ⟨stays, s', -, hrest⟩)
    · exact hcallback _ List.mem_cons_self _ _ hthrow
    · exact ih (fun p hmem => hcallback p (List.mem_cons_of_mem _ hmem)) hrest

/-- An exception of a callback leaves the pass when it leaves the loop over the poll results. -/
theorem waitNextEvent_eq_thrown_iff {rules : List (Rule σ ι ε)} {s : σ} {poll : Poll ι} :
    waitNextEvent rules s poll = .error (.thrown e) ↔
      (prepare rules s).1.any Prod.snd = true ∧ ∃ revents answers,
        poll = .reported revents answers ∧
          dispatch revents answers 0 (prepare rules s).1 (prepare rules s).2 =
            .error (.thrown e) := by
  unfold waitNextEvent
  generalize prepare rules s = prepared
  obtain ⟨polled, s'⟩ := prepared
  dsimp only
  cases polled.any Prod.snd with
  | false => simp
  | true =>
    cases poll with
    | timeout => simp
    | interrupted => simp
    | reported revents answers =>
      cases hdispatch : dispatch revents answers 0 polled s' with
      | error e' => simp [hdispatch, bind, Except.bind]
      | ok done => simp [hdispatch, bind, Except.bind, pure, Except.pure]

end Exceptions

end EventLoop

end Sponge
