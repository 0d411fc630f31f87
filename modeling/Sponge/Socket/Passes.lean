import Sponge.EventLoop
import Sponge.Lib.Execution

/-!
# Passes of an Event Loop

What one call of `wait_next_event` does, whatever the rules are.

* **A pass as a run** (`Action`, `waitNextEvent_actions`): a pass runs functions of installed
  rules, callbacks with the answers of the poll.
* **Rules that stay** (`Unhung`, `Calm`, `pass_of_idle`): only a hang-up erases a rule after the poll,
  and only a rule that is polled for its event.
* **Failed passes** (`waitNextEvent_error`): which rule an exception comes from, and what has
  happened before.
-/

namespace Sponge

namespace EventLoop

open Execution (Trace)

variable {σ ι ε : Type}

/-! ## §1 A pass as a run -/

/-- What a pass does to the state: it runs the functions of the rules, one after the other. -/
inductive Action (σ ι ε : Type) where
  | cancel (rule : Rule σ ι ε)
  | call (rule : Rule σ ι ε) (answer : ι)

namespace Action

/-- The rule that acts. -/
def rule : Action σ ι ε → Rule σ ι ε
  | .cancel rule => rule
  | .call rule _ => rule

/-- One function of a rule. -/
def Step (s : σ) : Action σ ι ε → σ → Prop
  | .cancel rule, t => t = rule.cancel s
  | .call rule answer, t => rule.callback answer s = .ok t

/-- A callback is called with an answer of the poll. -/
def Answered (poll : Poll ι) : Action σ ι ε → Prop
  | .cancel _ => True
  | .call _ answer => ∃ revents answers i, poll = .reported revents answers ∧ answer = answers i

end Action

section Actions

variable {revents : ℕ → Revents} {answers : ℕ → ι}

theorem prepare_actions (rules : List (Rule σ ι ε)) (s : σ) (poll : Poll ι) :
    ∃ actions, Trace Action.Step s actions (prepare rules s).2 ∧
      ∀ a ∈ actions, a.rule ∈ rules ∧ a.Answered poll := by
  induction rules generalizing s with
  | nil => exact ⟨[], .nil s, by simp⟩
  | cons rule rules ih =>
    by_cases hdefunct : rule.Defunct s
    · rw [prepare_of_defunct hdefunct]
      obtain ⟨actions, htrace, hrules⟩ := ih (rule.cancel s)
      refine ⟨.cancel rule :: actions, .cons rfl htrace, ?_⟩
      rw [List.forall_mem_cons]
      exact ⟨⟨List.mem_cons_self, trivial⟩,
        fun a ha => ⟨List.mem_cons_of_mem _ (hrules a ha).1, (hrules a ha).2⟩⟩
    · rw [prepare_of_not_defunct hdefunct]
      obtain ⟨actions, htrace, hrules⟩ := ih s
      exact ⟨actions, htrace,
        fun a ha => ⟨List.mem_cons_of_mem _ (hrules a ha).1, (hrules a ha).2⟩⟩

/-- A poll result is no action, or one action of the rule. -/
theorem handle_actions {rule : Rule σ ι ε} {events : Bool} {i : ℕ} {s t : σ} {stays : Bool}
    (h : rule.handle events (revents i) (answers i) s = .ok (stays, t)) :
    ∃ actions, Trace Action.Step s actions t ∧
      ∀ action ∈ actions, action.rule = rule ∧ action.Answered (.reported revents answers) := by
  rcases handle_cases h with ⟨-, rfl⟩ | ⟨-, rfl⟩ | ⟨-, -, -, hcall⟩
  · exact ⟨[.cancel rule], .cons rfl (.nil _), by simp [Action.rule, Action.Answered]⟩
  · exact ⟨[], .nil _, by simp⟩
  · refine ⟨[.call rule (answers i)], .cons hcall (.nil _), fun action haction => ?_⟩
    cases List.mem_singleton.mp haction
    exact ⟨rfl, revents, answers, i, rfl, rfl⟩

theorem dispatch_actions {polled : List (Rule σ ι ε × Bool)} {idx : ℕ} {s t : σ}
    {rules : List (Rule σ ι ε)} (h : dispatch revents answers idx polled s = .ok (rules, t)) :
    ∃ actions, Trace Action.Step s actions t ∧
      ∀ a ∈ actions, a.rule ∈ polled.map Prod.fst ∧ a.Answered (.reported revents answers) := by
  induction polled generalizing idx s rules with
  | nil =>
    cases h
    exact ⟨[], .nil _, by simp⟩
  | cons p polled ih =>
    obtain ⟨rule, events⟩ := p
    rw [dispatch_cons] at h
    split at h
    · cases h
    · rename_i stays s' hhandle
      split at h
      · cases h
      · rename_i rules' t' hrest
        cases h
        obtain ⟨first, hfirst, hrule⟩ := handle_actions hhandle
        obtain ⟨later, hlater, hrules⟩ := ih hrest
        refine ⟨first ++ later, hfirst.append hlater, fun a ha => ?_⟩
        rcases List.mem_append.mp ha with ha | ha
        · rw [(hrule a ha).1]
          exact ⟨List.mem_cons_self, (hrule a ha).2⟩
        · exact ⟨List.mem_cons_of_mem _ (hrules a ha).1, (hrules a ha).2⟩

/-- The ways a pass can end: nothing is served, or the poll results are gone through. -/
theorem waitNextEvent_cases {rules rules' : List (Rule σ ι ε)} {s t : σ} {poll : Poll ι}
    {result : Result} (h : waitNextEvent rules s poll = .ok (result, rules', t)) :
    (rules' = (prepare rules s).1.map Prod.fst ∧ t = (prepare rules s).2 ∧
      (result = .Exit → poll ≠ .interrupted → (prepare rules s).1.any Prod.snd = false)) ∨
    ∃ revents answers, poll = .reported revents answers ∧ result = .Success ∧
      dispatch revents answers 0 (prepare rules s).1 (prepare rules s).2 = .ok (rules', t) := by
  unfold waitNextEvent at h
  generalize prepare rules s = prepared at h ⊢
  obtain ⟨polled, s'⟩ := prepared
  dsimp only at h ⊢
  split at h
  · rename_i hnone
    cases h
    exact .inl ⟨rfl, rfl, fun _ _ => by simpa using hnone⟩
  · cases poll with
    | timeout =>
      cases h
      exact .inl ⟨rfl, rfl, by rintro ⟨⟩⟩
    | interrupted =>
      cases h
      exact .inl ⟨rfl, rfl, fun _ hpoll => absurd rfl hpoll⟩
    | reported revents answers =>
      cases hdispatch : dispatch revents answers 0 polled s' with
      | error e => simp [hdispatch, bind, Except.bind] at h
      | ok done =>
        obtain ⟨rules'', t'⟩ := done
        simp only [hdispatch, bind, Except.bind, pure, Except.pure, Except.ok.injEq,
          Prod.mk.injEq] at h
        obtain ⟨rfl, rfl, rfl⟩ := h
        exact .inr ⟨revents, answers, rfl, rfl, hdispatch⟩

/-- **What a pass does.**  It runs functions of installed rules, callbacks with the answers of
    the poll. -/
theorem waitNextEvent_actions {rules rules' : List (Rule σ ι ε)} {s t : σ} {poll : Poll ι}
    {result : Result} (h : waitNextEvent rules s poll = .ok (result, rules', t)) :
    ∃ actions, Trace Action.Step s actions t ∧
      ∀ a ∈ actions, a.rule ∈ rules ∧ a.Answered poll := by
  obtain ⟨first, hfirst, hrules⟩ := prepare_actions rules s poll
  rcases waitNextEvent_cases h with ⟨-, rfl, -⟩ | ⟨revents, answers, rfl, -, hdispatch⟩
  · exact ⟨first, hfirst, hrules⟩
  · have hsub := (prepare_invariant (I := fun _ => True)
      (fun rule (_ : rule ∈ rules) _ _ => trivial) (s := s) trivial).1
    obtain ⟨later, hlater, hpolled⟩ := dispatch_actions hdispatch
    refine ⟨first ++ later, hfirst.append hlater, fun a ha => ?_⟩
    rcases List.mem_append.mp ha with ha | ha
    · exact hrules a ha
    · exact ⟨hsub.subset (hpolled a ha).1, (hpolled a ha).2⟩

end Actions

/-! ## §2 Rules that stay -/

section Staying

variable {revents : ℕ → Revents} {answers : ℕ → ι}

/-- No rule that is polled for its event is told of a hang-up instead.  The poll results of the
    rules are counted from `idx` on. -/
def Unhung (revents : ℕ → Revents) (polled : List (Rule σ ι ε × Bool)) (idx : ℕ) : Prop :=
  ∀ p ∈ polled.zipIdx idx, p.1.2 = true → (revents p.2).hup = true → (revents p.2).event = true

instance (polled : List (Rule σ ι ε × Bool)) (idx : ℕ) : Decidable (Unhung revents polled idx) :=
  inferInstanceAs (Decidable (∀ p ∈ polled.zipIdx idx, _))

/-- Only a hang-up without the event erases a rule, and only one that was polled for it. -/
theorem handle_stays {rule : Rule σ ι ε} {events : Bool} {rev : Revents} {a : ι} {s t : σ}
    {stays : Bool} (h : rule.handle events rev a s = .ok (stays, t))
    (hhup : events = true → rev.hup = true → rev.event = true) : stays = true := by
  unfold Rule.handle at h
  dsimp only at h
  split_ifs at h with _ hcancel hready
  · simp only [Bool.and_eq_true, Bool.not_eq_true', Bool.and_eq_false_iff] at hcancel
    obtain ⟨⟨hhangs, hevents⟩, hno | hno⟩ := hcancel
    · rw [hevents] at hno
      cases hno
    · rw [hhup hevents hhangs] at hno
      cases hno
  · cases hserve : rule.serve a s <;> rw [hserve] at h <;> cases h
    rfl
  · cases h
    rfl

/-- Then the loop over the poll results only runs callbacks: no rule is erased, and an invariant
    of the callbacks that are run is kept. -/
theorem dispatch_calls {I : σ → Prop} {polled : List (Rule σ ι ε × Bool)} {idx : ℕ}
    (hhup : Unhung revents polled idx)
    (hcallback : ∀ p ∈ polled.zipIdx idx, p.1.2 = true → (revents p.2).event = true →
      ∀ s t, I s → p.1.1.callback (answers p.2) s = .ok t → I t)
    {s t : σ} {rules : List (Rule σ ι ε)}
    (h : dispatch revents answers idx polled s = .ok (rules, t)) (hs : I s) :
    rules = polled.map Prod.fst ∧ I t := by
  induction polled generalizing idx s rules with
  | nil =>
    cases h
    exact ⟨rfl, hs⟩
  | cons p polled ih =>
    obtain ⟨rule, events⟩ := p
    rw [Unhung, List.zipIdx_cons] at hhup
    rw [List.zipIdx_cons] at hcallback
    obtain ⟨hfirst, hothers⟩ := List.forall_mem_cons.mp hcallback
    obtain ⟨hcalm, hrestCalm⟩ := List.forall_mem_cons.mp hhup
    rw [dispatch_cons] at h
    split at h
    · cases h
    · rename_i stays s' hhandle
      split at h
      · cases h
      · rename_i rules' t' hrest
        cases h
        have hstays := handle_stays hhandle hcalm
        have hs' : I s' := by
          rcases handle_cases hhandle with ⟨hgoes, -⟩ | ⟨-, rfl⟩ | ⟨-, hevents, hevent, hrun⟩
          · rw [hstays] at hgoes
            cases hgoes
          · exact hs
          · exact hfirst hevents hevent s s' hs hrun
        obtain ⟨hrules, ht⟩ := ih hrestCalm hothers hrest hs'
        rw [if_pos hstays, hrules, List.map_cons]
        exact ⟨rfl, ht⟩

end Staying

section Idle

instance (rule : Rule σ ι ε) (s : σ) : Decidable (rule.Defunct s) :=
  inferInstanceAs (Decidable (_ ∨ _))

/-- If cancelling changes nothing, the rules that are not defunct are polled, all in one state. -/
theorem prepare_of_idle {rules : List (Rule σ ι ε)} {s : σ}
    (h : ∀ rule ∈ rules, rule.Defunct s → rule.cancel s = s) :
    prepare rules s =
      ((rules.filter fun rule => ¬ rule.Defunct s).map fun rule => (rule, rule.interest s), s) := by
  induction rules with
  | nil => rfl
  | cons rule rules ih =>
    obtain ⟨hrule, hrest⟩ := List.forall_mem_cons.mp h
    by_cases hdefunct : rule.Defunct s
    · rw [prepare_of_defunct hdefunct, hrule hdefunct, ih hrest,
        List.filter_cons_of_neg (by simpa using hdefunct)]
    · rw [prepare_of_not_defunct hdefunct, ih hrest,
        List.filter_cons_of_pos (by simpa using hdefunct), List.map_cons]

/-- Then the loop ends exactly when every rule is defunct or not interested. -/
theorem exit_iff_of_idle {rules : List (Rule σ ι ε)} {s : σ} {poll : Poll ι}
    (h : ∀ rule ∈ rules, rule.Defunct s → rule.cancel s = s) (hpoll : poll ≠ .interrupted) :
    (∃ rules' t, waitNextEvent rules s poll = .ok (.Exit, rules', t)) ↔
      ∀ rule ∈ rules, rule.Defunct s ∨ rule.interest s = false := by
  have hnone : ((prepare rules s).1.any Prod.snd = false) ↔
      ∀ rule ∈ rules, rule.Defunct s ∨ rule.interest s = false := by
    rw [prepare_of_idle h]
    simp only [List.any_map, List.any_eq_false, List.mem_filter, decide_not, Bool.not_eq_true',
      decide_eq_false_iff_not, Function.comp_apply, Bool.not_eq_true, and_imp]
    exact forall₂_congr fun rule _ => or_iff_not_imp_left.symm
  rw [← hnone]
  constructor
  · rintro ⟨rules', t, hpass⟩
    rcases waitNextEvent_cases hpass with ⟨-, -, hexit⟩ | ⟨_, _, -, hresult, -⟩
    · exact hexit rfl hpoll
    · cases hresult
  · intro hquiet
    refine ⟨(prepare rules s).1.map Prod.fst, (prepare rules s).2, ?_⟩
    unfold waitNextEvent
    dsimp only
    rw [hquiet]
    rfl

/-- A poll after which no rule is erased. -/
def Calm (rules : List (Rule σ ι ε)) (s : σ) : Poll ι → Prop
  | .reported revents _ => Unhung revents (prepare rules s).1 0
  | _ => True

instance (rules : List (Rule σ ι ε)) (s : σ) : DecidablePred (Calm rules s)
  | .reported revents _ => inferInstanceAs (Decidable (Unhung revents _ _))
  | .timeout => .isTrue trivial
  | .interrupted => .isTrue trivial

/-- And with a calm poll the rules that are not defunct stay. -/
theorem pass_of_idle {I : σ → Prop} {rules rules' : List (Rule σ ι ε)} {s t : σ} {poll : Poll ι}
    {result : Result} (hidle : ∀ rule ∈ rules, rule.Defunct s → rule.cancel s = s)
    (hcalm : Calm rules s poll)
    (hcallback : ∀ rule ∈ rules, ∀ a s t, I s → rule.callback a s = .ok t → I t)
    (h : waitNextEvent rules s poll = .ok (result, rules', t)) (hs : I s) :
    rules' = rules.filter (fun rule => ¬ rule.Defunct s) ∧ I t := by
  have hrules : (prepare rules s).1.map Prod.fst = rules.filter fun rule => ¬ rule.Defunct s := by
    rw [prepare_of_idle hidle, List.map_map]
    exact List.map_id _
  have hstate : (prepare rules s).2 = s := by rw [prepare_of_idle hidle]
  rcases waitNextEvent_cases h with ⟨hsame, ht, -⟩ | ⟨revents, answers, rfl, -, hdispatch⟩
  · rw [hsame, ht, hrules, hstate]
    exact ⟨rfl, hs⟩
  · rw [hstate] at hdispatch
    rw [← hrules]
    refine dispatch_calls hcalm (fun p hp _ _ => hcallback p.1.1 ?_ (answers p.2)) hdispatch hs
    -- what is polled is installed
    have hpolled := List.mem_map_of_mem (f := Prod.fst) (List.fst_mem_of_mem_zipIdx hp)
    rw [hrules] at hpolled
    exact List.mem_of_mem_filter hpolled

end Idle

/-! ## §3 Failed passes -/

section Failures

variable {revents : ℕ → Revents} {answers : ℕ → ι} {err : LoopException ε}

/-- From `s` to `t` some of the rules were cancelled. -/
def Cancelled (rules : List (Rule σ ι ε)) (s t : σ) : Prop :=
  ∃ actions, Trace Action.Step s actions t ∧ ∀ a ∈ actions, ∃ rule ∈ rules, a = .cancel rule

theorem Cancelled.invariant {rules : List (Rule σ ι ε)} {s t : σ} (h : Cancelled rules s t)
    {I : σ → Prop} (hI : ∀ rule ∈ rules, ∀ s, I s → I (rule.cancel s)) (hs : I s) : I t := by
  obtain ⟨actions, htrace, hactions⟩ := h
  induction htrace with
  | nil => exact hs
  | cons hstep _ ih =>
    obtain ⟨⟨rule, hrule, rfl⟩, hrest⟩ := List.forall_mem_cons.mp hactions
    cases hstep
    exact ih (hI rule hrule _ hs) hrest

theorem Cancelled.mono {rules rules' : List (Rule σ ι ε)} {s t : σ} (h : Cancelled rules s t)
    (hsub : rules ⊆ rules') : Cancelled rules' s t := by
  obtain ⟨actions, htrace, hactions⟩ := h
  refine ⟨actions, htrace, fun a ha => ?_⟩
  obtain ⟨rule, hrule, rfl⟩ := hactions a ha
  exact ⟨rule, hsub hrule, rfl⟩

theorem Cancelled.actions {rules : List (Rule σ ι ε)} {s t : σ} (h : Cancelled rules s t) :
    ∃ actions, Trace Action.Step s actions t ∧ ∀ a ∈ actions, a.rule ∈ rules := by
  obtain ⟨actions, htrace, hactions⟩ := h
  refine ⟨actions, htrace, fun a ha => ?_⟩
  obtain ⟨rule, hrule, rfl⟩ := hactions a ha
  exact hrule

/-- Preparing only cancels. -/
theorem prepare_cancelled (rules : List (Rule σ ι ε)) (s : σ) :
    Cancelled rules s (prepare rules s).2 := by
  induction rules generalizing s with
  | nil => exact ⟨[], .nil s, by simp⟩
  | cons rule rules ih =>
    by_cases hdefunct : rule.Defunct s
    · rw [prepare_of_defunct hdefunct]
      obtain ⟨actions, htrace, hactions⟩ := ih (rule.cancel s)
      refine ⟨.cancel rule :: actions, .cons rfl htrace, ?_⟩
      rw [List.forall_mem_cons]
      refine ⟨⟨rule, List.mem_cons_self, rfl⟩, fun a ha => ?_⟩
      obtain ⟨other, hother, rfl⟩ := hactions a ha
      exact ⟨other, List.mem_cons_of_mem _ hother, rfl⟩
    · rw [prepare_of_not_defunct hdefunct]
      exact (ih s).mono (List.subset_cons_self _ _)

/-- Where a rule that is polled stands, and in which state it was asked for its interest. -/
theorem prepare_split {rules : List (Rule σ ι ε)} {s : σ} {polled : List (Rule σ ι ε × Bool)}
    {rule : Rule σ ι ε} {events : Bool} {rest : List (Rule σ ι ε × Bool)}
    (h : (prepare rules s).1 = polled ++ (rule, events) :: rest) :
    ∃ before after v, rules = before ++ rule :: after ∧ polled.map Prod.fst ⊆ before ∧
      Cancelled before s v ∧ events = rule.interest v ∧ Cancelled after v (prepare rules s).2 := by
  induction rules generalizing s polled with
  | nil => cases polled <;> cases h
  | cons first rules ih =>
    by_cases hdefunct : first.Defunct s
    · rw [prepare_of_defunct hdefunct] at h ⊢
      obtain ⟨before, after, v, rfl, hsub, ⟨actions, htrace, hactions⟩, hinterest, hafter⟩ := ih h
      refine ⟨first :: before, after, v, rfl, fun r hr => List.mem_cons_of_mem _ (hsub hr),
        ⟨.cancel first :: actions, .cons rfl htrace, ?_⟩, hinterest, hafter⟩
      rw [List.forall_mem_cons]
      refine ⟨⟨first, List.mem_cons_self, rfl⟩, fun a ha => ?_⟩
      obtain ⟨other, hother, rfl⟩ := hactions a ha
      exact ⟨other, List.mem_cons_of_mem _ hother, rfl⟩
    · rw [prepare_of_not_defunct hdefunct] at h ⊢
      cases polled with
      | nil =>
        obtain ⟨hfirst, -⟩ := List.cons.inj h
        cases hfirst
        exact ⟨[], rules, s, rfl, by simp, ⟨[], .nil s, by simp⟩, rfl, prepare_cancelled rules s⟩
      | cons p polled =>
        obtain ⟨hfirst, htail⟩ := List.cons.inj h
        obtain ⟨before, after, v, rfl, hsub, hbefore, hinterest, hafter⟩ := ih htail
        refine ⟨first :: before, after, v, rfl, ?_, hbefore.mono (List.subset_cons_self _ _),
          hinterest, hafter⟩
        rw [← hfirst, List.map_cons]
        exact List.cons_subset_cons first hsub

/-- An exception leaves the loop over the poll results at one of them. -/
theorem dispatch_error {polled : List (Rule σ ι ε × Bool)} {idx : ℕ} {s : σ}
    (h : dispatch revents answers idx polled s = .error err) :
    ∃ front rule events rest i rules t, polled = front ++ (rule, events) :: rest ∧
      dispatch revents answers idx front s = .ok (rules, t) ∧
      rule.handle events (revents i) (answers i) t = .error err := by
  induction polled generalizing idx s with
  | nil => cases h
  | cons p polled ih =>
    obtain ⟨rule, events⟩ := p
    rw [dispatch_cons] at h
    split at h
    · rename_i err' hhandle
      cases h
      exact ⟨[], rule, events, polled, idx, [], s, rfl, rfl, hhandle⟩
    · rename_i stays s' hhandle
      split at h
      · rename_i err' hrest
        cases h
        obtain ⟨front, rule', events', rest, i, rules, t, rfl, hfront, hfails⟩ := ih hrest
        refine ⟨(rule, events) :: front, rule', events', rest, i,
          if stays then rule :: rules else rules, t, rfl, ?_, hfails⟩
        rw [dispatch_cons, hhandle]
        dsimp only
        rw [hfront]
      · cases h

/-- The ways a poll result fails. -/
theorem handle_error {rule : Rule σ ι ε} {events : Bool} {rev : Revents} {a : ι} {s : σ}
    (h : rule.handle events rev a s = .error err) :
    (err = .polledError ∧ rev.error = true) ∨
      (events = true ∧ rev.event = true ∧
        ((∃ e, err = .thrown e ∧ rule.callback a s = .error e) ∨
          (err = .busyWait ∧ ∃ t, rule.callback a s = .ok t ∧
            rule.serviceCount s = rule.serviceCount t ∧ rule.interest t = true))) := by
  unfold Rule.handle at h
  dsimp only at h
  split_ifs at h with herror _ hready
  · cases h
    exact .inl ⟨rfl, herror⟩
  · rw [Bool.and_eq_true] at hready
    refine .inr ⟨hready.1, hready.2, ?_⟩
    cases hserve : rule.serve a s with
    | ok t =>
      rw [hserve] at h
      cases h
    | error err' =>
      rw [hserve] at h
      cases h
      unfold Rule.serve at hserve
      split at hserve
      · rename_i e hcall
        cases hserve
        exact .inl ⟨e, rfl, hcall⟩
      · rename_i t hcall
        split at hserve
        · rename_i hbusy
          cases hserve
          exact .inr ⟨rfl, t, hcall, hbusy⟩
        · cases hserve

/-- **Where a pass fails.**  One of the rules fails, when those before it have been handled and
    the defunct ones have been cancelled. -/
theorem waitNextEvent_error {rules : List (Rule σ ι ε)} {s : σ} {poll : Poll ι}
    (h : waitNextEvent rules s poll = .error err) :
    ∃ revents answers, poll = .reported revents answers ∧
      ∃ before rule after, rules = before ++ rule :: after ∧
        ∃ v, Cancelled before s v ∧
          ∃ w, Cancelled after v w ∧
            ∃ actions u, Trace Action.Step w actions u ∧
              (∀ a ∈ actions, a.rule ∈ before ∧ a.Answered poll) ∧
              ∃ i, rule.handle (rule.interest v) (revents i) (answers i) u = .error err := by
  unfold waitNextEvent at h
  dsimp only at h
  split at h
  · cases h
  · cases poll with
    | timeout => cases h
    | interrupted => cases h
    | reported revents answers =>
      dsimp only at h
      cases hrun : dispatch revents answers 0 (prepare rules s).1 (prepare rules s).2 with
      | ok done =>
        rw [hrun] at h
        cases h
      | error err' =>
        rw [hrun] at h
        cases h
        obtain ⟨front, rule, events, rest, i, _, u, hpolled, hfront, hfails⟩ := dispatch_error hrun
        obtain ⟨before, after, v, hrules, hsub, hbefore, rfl, hafter⟩ := prepare_split hpolled
        obtain ⟨actions, htrace, hactions⟩ := dispatch_actions hfront
        exact ⟨revents, answers, rfl, before, rule, after, hrules, v, hbefore, _, hafter, actions,
          u, htrace, fun a ha => ⟨hsub (hactions a ha).1, (hactions a ha).2⟩, i, hfails⟩

end Failures

end EventLoop

end Sponge
