import Sponge.Application
import Sponge.Network.Finishing
import Sponge.Socket.Copying

/-!
# From One Standard Input to the Other Standard Output

Two programs, each with its copy loop, its socket thread and the socket pair between the two, over
a network that loses, duplicates and reorders datagrams.

* **The socket pair** (`Joined`): what one thread has written is what has arrived for the other.
* **The parts** (`Step.copies`, `Step.relays`): an event of a program is a run of its copy loop, and
  a run of its endpoint, so the results on each hold of the whole.
* **The result** (`output_is_input`): what is on one standard output is a prefix of what was on the
  other standard input, and all of it when the copy loop returns in a calm run.
-/

namespace Sponge

open Endpoint (Opening)
open EventLoop (Poll)
open Execution (Trace Guarded performIf)

/-! ## §1 A pass of the thread, as the application sees it -/

theorem TCPSpongeSocket.inboundShutdown_of_writeData {s t : TCPSpongeSocket} {a : Answer}
    (h : s.writeData a = .ok t) (hdone : s.inboundShutdown = true) : t.inboundShutdown = true := by
  unfold writeData at h
  dsimp only at h
  split_ifs at h <;> cases h
  · rfl
  · exact hdone

namespace Endpoint

variable {α δ : Type} [FdAdapter α δ]

/-- What a pass does at the socket pair. -/
structure Serves (e e' : Endpoint α δ) : Prop where
  outbox : e'.outbox = e.outbox
  outboxClosed : e'.outboxClosed = e.outboxClosed
  inbox : e.inbox <+: e'.inbox
  shutdown : e.socket.inboundShutdown = true → e'.socket.inboundShutdown = true

section Serves

variable {e e' e'' : Endpoint α δ} {a : SystemAnswer δ} {r r' : Running α δ}

omit [FdAdapter α δ] in
theorem Serves.refl (e : Endpoint α δ) : Serves e e :=
  ⟨rfl, rfl, List.prefix_rfl, id⟩

omit [FdAdapter α δ] in
theorem Serves.trans (h₁ : Serves e e') (h₂ : Serves e' e'') : Serves e e'' :=
  ⟨h₂.outbox.trans h₁.outbox, h₂.outboxClosed.trans h₁.outboxClosed, h₁.inbox.trans h₂.inbox,
    h₂.shutdown ∘ h₁.shutdown⟩

theorem serves_of_callback {rule} (hrule : rule ∈ rules α δ) (h : rule.callback a e = .ok e') :
    Serves e e' := by
  simp only [rules, List.mem_cons, List.not_mem_nil, or_false] at hrule
  rcases hrule with rfl | rfl | rfl | rfl
  · obtain ⟨segment, adapter, socket, -, hsocket, rfl⟩ := readSegment_cases h
    obtain ⟨-, hin, -⟩ := TCPSpongeSocket.readSegment_frame hsocket
    exact ⟨rfl, rfl, List.prefix_rfl, fun hdone => hin.trans hdone⟩
  · obtain ⟨-, socket, hsocket, rfl⟩ := readData_cases h
    obtain ⟨-, rfl | ⟨-, rfl⟩⟩ := TCPSpongeSocket.readData_cases hsocket
    · exact ⟨rfl, rfl, List.prefix_rfl, id⟩
    · exact ⟨rfl, rfl, List.prefix_rfl, id⟩
  · obtain ⟨socket, hsocket, rfl⟩ := writeData_cases h
    exact ⟨rfl, rfl, List.prefix_append _ _, TCPSpongeSocket.inboundShutdown_of_writeData hsocket⟩
  · obtain ⟨datagrams, socket, -, -, -, -, hin, -, rfl⟩ := writeSegments_cases h
    exact ⟨rfl, rfl, List.prefix_rfl, fun hdone => hin.trans hdone⟩

theorem serves_of_cancel {rule} (hrule : rule ∈ rules α δ) (e : Endpoint α δ) :
    Serves e (rule.cancel e) := by
  simp only [rules, List.mem_cons, List.not_mem_nil, or_false] at hrule
  rcases hrule with rfl | rfl | rfl | rfl <;> exact ⟨rfl, rfl, List.prefix_rfl, id⟩

theorem Running.Step.serves {poll : Poll (SystemAnswer δ)} (h : r.Step (.waitNextEvent poll) r')
    (hrules : r.rules.Sublist (Endpoint.rules α δ)) : Serves r.endpoint r'.endpoint := by
  obtain ⟨result, hpass⟩ := h
  refine (EventLoop.waitNextEvent_invariant (I := Serves r.endpoint) ?_ ?_ hpass (.refl _)).2
  · exact fun rule hmem s hs => hs.trans (serves_of_cancel (hrules.subset hmem) s)
  · exact fun rule hmem a s t hs hrun => hs.trans (serves_of_callback (hrules.subset hmem) hrun)

/-- The datagrams that have passed the filter are remembered. -/
theorem passed_of_trace {events : List (Event δ)} (h : Trace Running.Step r events r')
    (hrules : r.rules.Sublist (rules α δ)) : r.endpoint.passed <+: r'.endpoint.passed := by
  refine (h.invariant (I := fun t => t.rules.Sublist (rules α δ) ∧
    r.endpoint.passed <+: t.endpoint.passed) ?_ ⟨hrules, List.prefix_rfl⟩).2
  rintro s event t ⟨hs, hpassed⟩ hstep
  obtain ⟨ht, hadvances, -⟩ := hstep.relays hs
  exact ⟨ht, hpassed.trans hadvances.passed⟩

end Serves

end Endpoint

/-- A run of one endpoint is a run of the network, if the network does not forge, under the same
    guard. -/
theorem Network.trace_of_endpoint {α δ : Type} [FdAdapter α δ] {n : Network α δ} {p : Side}
    {r r' : Endpoint.Running α δ} {events : List (Endpoint.Event δ)}
    {G : Endpoint.Running α δ → Endpoint.Event δ → Prop}
    (h : Trace (Guarded Endpoint.Running.Step G) r events r')
    (hrules : r.rules.Sublist (Endpoint.rules α δ))
    (hpassed : ∀ d ∈ r'.endpoint.passed, d ∈ (n p.peer).endpoint.wire) :
    Trace (Guarded Step fun n e => G (n e.side) e.event) (Function.update n p r)
      (events.map (Event.mk p)) (Function.update n p r') := by
  induction h with
  | nil r => exact .nil _
  | @cons r s t event events hstep hrest ih =>
    obtain ⟨hguard, hstep⟩ := hstep
    have hs := (hstep.relays hrules).1
    refine .cons ⟨?_, s, ?_, ?_, fun d hd => ?_⟩ (ih hs hpassed)
    · dsimp only
      rw [Function.update_self]
      exact hguard
    · rw [Function.update_self]
      exact hstep
    · rw [Function.update_idem]
    · rw [Function.update_of_ne p.peer_ne]
      exact hpassed d ((Endpoint.passed_of_trace hrest.of_guarded hs).subset hd)

/-! ## §2 One program -/

namespace Application

variable {α δ : Type} [FdAdapter α δ]

/-- The two threads agree on what has passed through the socket pair. -/
structure Joined (p : Application α δ) : Prop where
  outbox : p.thread.endpoint.outbox = p.copier.copier.outbound.delivered
  outboxClosed : p.thread.endpoint.outboxClosed = p.copier.copier.outboundShutdown
  inbox : p.copier.copier.inbound.arrived = p.thread.endpoint.inbox
  inboxClosed : p.copier.copier.inbound.closed = p.thread.endpoint.socket.inboundShutdown

/-- Neither loop is told of a hang-up instead of an event that it asks for, and the adapter does not
    meet the end of its file. -/
def Calm (p : Application α δ) : Event δ → Prop
  | .copy poll => p.copier.Calm (.waitNextEvent poll)
  | .relay poll => p.thread.Calm (.waitNextEvent poll)
  | _ => True

instance (p : Application α δ) : DecidablePred p.Calm
  | .copy poll => inferInstanceAs (Decidable (p.copier.Calm (.waitNextEvent poll)))
  | .relay poll => inferInstanceAs (Decidable (p.thread.Calm (.waitNextEvent poll)))
  | .tick _ => .isTrue trivial
  | .typed _ => .isTrue trivial
  | .endOfInput => .isTrue trivial

/-- What holds of a program in any case. -/
structure Coupled (p : Application α δ) : Prop where
  joined : Joined p
  copier : p.copier.Safe
  rules : p.thread.rules.Sublist (Endpoint.rules α δ)

section Step

variable {p p' : Application α δ} {event : Event δ}

omit [FdAdapter α δ] in
/-- What the thread has written in a pass arrives at the copy loop. -/
theorem copies_of_received {thread : Endpoint.Running α δ} (h : Joined p)
    (hserves : Endpoint.Serves p.thread.endpoint thread.endpoint)
    (hquiet : p.thread.endpoint.socket.inboundShutdown = true →
      thread.endpoint.inbox = p.thread.endpoint.inbox) :
    ∃ events, Trace (Guarded Copier.Running.Step Copier.Running.Calm) p.copier events
      (received { p with thread }).copier := by
  obtain ⟨data, hdata⟩ := hserves.inbox
  obtain ⟨⟨rules, s⟩, r⟩ := p
  obtain ⟨-, -, hinbox, hclosed⟩ := h
  dsimp only at hserves hquiet hdata hinbox hclosed
  cases hshutdown : r.endpoint.socket.inboundShutdown with
  | true =>
    -- nothing is written after the end
    refine ⟨[], ?_⟩
    have hsame : (received { copier := ⟨rules, s⟩, thread }).copier = ⟨rules, s⟩ := by
      unfold received
      dsimp only
      rw [hquiet hshutdown, hserves.shutdown hshutdown, ← hinbox, ← hshutdown, ← hclosed]
    rw [hsame]
    exact .nil _
  | false =>
    have hopen : s.inbound.closed = false := hclosed.trans hshutdown
    have harrive : Copier.Running.Step ⟨rules, s⟩ (.received data)
        ⟨rules, { s with inbound := s.inbound.arrive data }⟩ := ⟨hopen, rfl⟩
    cases hend : thread.endpoint.socket.inboundShutdown with
    | false =>
      refine ⟨[.received data], .cons ⟨trivial, harrive⟩ ?_⟩
      have hsame : (received { copier := ⟨rules, s⟩, thread }).copier =
          ⟨rules, { s with inbound := s.inbound.arrive data }⟩ := by
        unfold received Conduit.arrive
        dsimp only
        rw [hend, ← hdata, ← hinbox, ← hopen]
      rw [hsame]
      exact .nil _
    | true =>
      refine ⟨[.received data, .endOfStream],
        .cons ⟨trivial, harrive⟩ (.cons ⟨trivial, rfl⟩ ?_)⟩
      have hsame : (received { copier := ⟨rules, s⟩, thread }).copier =
          ⟨rules, { s with inbound := (s.inbound.arrive data).close }⟩ := by
        unfold received Conduit.arrive Conduit.close
        dsimp only
        rw [hend, ← hdata, ← hinbox]
      rw [hsame]
      exact .nil _

/-- **An event of a program is a run of its copy loop**, a calm one if the event is calm. -/
theorem Step.copies (h : p.Step event p') (hp : Coupled p) :
    ∃ events, Trace (Guarded Copier.Running.Step fun r e => p.Calm event → r.Calm e) p.copier events
      p'.copier := by
  cases event with
  | copy poll =>
    obtain ⟨copier, hstep, rfl⟩ := h
    exact ⟨[.waitNextEvent poll], .cons ⟨id, hstep⟩ (.nil _)⟩
  | relay poll =>
    obtain ⟨thread, hstep, hquiet, rfl⟩ := h
    obtain ⟨events, htrace⟩ := copies_of_received hp.joined (hstep.serves hp.rules) hquiet
    exact ⟨events, htrace.mono fun _ _ _ hstep => ⟨fun _ => hstep.1, hstep.2⟩⟩
  | tick ms =>
    obtain ⟨thread, -, rfl⟩ := h
    exact ⟨[], .nil _⟩
  | typed data =>
    obtain ⟨copier, hstep, rfl⟩ := h
    exact ⟨[.typed data], .cons ⟨fun _ => trivial, hstep⟩ (.nil _)⟩
  | endOfInput =>
    obtain ⟨copier, hstep, rfl⟩ := h
    exact ⟨[.endOfInput], .cons ⟨fun _ => trivial, hstep⟩ (.nil _)⟩

/-- What the copy loop has written in a pass is written to the socket. -/
theorem relays_of_sent {copier : Copier.Running} (h : Joined p) (hsafe : p.copier.Safe)
    (hpumps : Copier.Pumps p.copier.copier copier.copier) :
    ∃ events, Trace (Guarded Endpoint.Running.Step Endpoint.Running.Calm) p.thread events
      (sent { p with copier }).thread := by
  obtain ⟨data, hdata⟩ := hpumps.outbound.delivered
  obtain ⟨c, ⟨rules, e⟩⟩ := p
  obtain ⟨houtbox, hclosed, -, -⟩ := h
  dsimp only at hsafe hpumps hdata houtbox hclosed
  cases hshutdown : c.copier.outboundShutdown with
  | true =>
    -- the stream was at its end
    refine ⟨[], ?_⟩
    have hsame : (sent { copier, thread := ⟨rules, e⟩ }).thread = ⟨rules, e⟩ := by
      unfold sent
      dsimp only
      rw [hpumps.outboundShutdown hshutdown,
        (hpumps.outbound.eof (hsafe.copier.outboundDone hshutdown)).2, ← houtbox, ← hshutdown,
        ← hclosed]
    rw [hsame]
    exact .nil _
  | false =>
    have hopen : e.outboxClosed = false := hclosed.trans hshutdown
    have hwrite : Endpoint.Running.Step ⟨rules, e⟩ (.write data)
        ⟨rules, { e with outbox := e.outbox ++ data }⟩ := ⟨hopen, rfl⟩
    cases hend : copier.copier.outboundShutdown with
    | false =>
      refine ⟨[.write data], .cons ⟨trivial, hwrite⟩ ?_⟩
      have hsame : (sent { copier, thread := ⟨rules, e⟩ }).thread =
          ⟨rules, { e with outbox := e.outbox ++ data }⟩ := by
        unfold sent
        dsimp only
        rw [hend, ← hdata, ← houtbox, ← hopen]
      rw [hsame]
      exact .nil _
    | true =>
      refine ⟨[.write data, .shutdown], .cons ⟨trivial, hwrite⟩ (.cons ⟨trivial, rfl⟩ ?_)⟩
      have hsame : (sent { copier, thread := ⟨rules, e⟩ }).thread =
          ⟨rules, { e with outbox := e.outbox ++ data, outboxClosed := true }⟩ := by
        unfold sent
        dsimp only
        rw [hend, ← hdata, ← houtbox]
      rw [hsame]
      exact .nil _

/-- **An event of a program is a run of its endpoint**, a calm one if the event is calm. -/
theorem Step.relays (h : p.Step event p') (hp : Coupled p) :
    ∃ events, Trace (Guarded Endpoint.Running.Step fun r e => p.Calm event → r.Calm e) p.thread
      events p'.thread := by
  cases event with
  | copy poll =>
    obtain ⟨copier, hstep, rfl⟩ := h
    obtain ⟨events, htrace⟩ := relays_of_sent hp.joined hp.copier (hp.copier.pass hstep).2
    exact ⟨events, htrace.mono fun _ _ _ hstep => ⟨fun _ => hstep.1, hstep.2⟩⟩
  | relay poll =>
    obtain ⟨thread, hstep, -, rfl⟩ := h
    exact ⟨[.waitNextEvent poll], .cons ⟨id, hstep⟩ (.nil _)⟩
  | tick ms =>
    obtain ⟨thread, hstep, rfl⟩ := h
    exact ⟨[.tick ms], .cons ⟨fun _ => trivial, hstep⟩ (.nil _)⟩
  | typed data =>
    obtain ⟨copier, -, rfl⟩ := h
    exact ⟨[], .nil _⟩
  | endOfInput =>
    obtain ⟨copier, -, rfl⟩ := h
    exact ⟨[], .nil _⟩

theorem Joined.step (h : p.Step event p') (hp : Coupled p) : Joined p' := by
  have hj := hp.joined
  cases event with
  | copy poll =>
    obtain ⟨copier, hstep, rfl⟩ := h
    have hpumps := (hp.copier.pass hstep).2
    exact ⟨rfl, rfl, hpumps.inbound.arrived.trans hj.inbox,
      hpumps.inbound.closed.trans hj.inboxClosed⟩
  | relay poll =>
    obtain ⟨thread, hstep, -, rfl⟩ := h
    have hserves := hstep.serves hp.rules
    exact ⟨hserves.outbox.trans hj.outbox, hserves.outboxClosed.trans hj.outboxClosed, rfl, rfl⟩
  | tick ms =>
    obtain ⟨thread, hstep, rfl⟩ := h
    cases hstep
    refine ⟨hj.outbox, hj.outboxClosed, hj.inbox, hj.inboxClosed.trans ?_⟩
    dsimp only
    unfold TCPSpongeSocket.tick
    split <;> rfl
  | typed data =>
    obtain ⟨copier, ⟨-, rfl⟩, rfl⟩ := h
    exact ⟨hj.outbox, hj.outboxClosed, hj.inbox, hj.inboxClosed⟩
  | endOfInput =>
    obtain ⟨copier, rfl, rfl⟩ := h
    exact ⟨hj.outbox, hj.outboxClosed, hj.inbox, hj.inboxClosed⟩

theorem Coupled.step (hp : Coupled p) (h : p.Step event p') : Coupled p' := by
  obtain ⟨copied, hcopies⟩ := h.copies hp
  obtain ⟨relayed, hrelays⟩ := h.relays hp
  refine ⟨.step h hp, ?_, ?_⟩
  · exact hcopies.of_guarded.invariant (fun _ _ _ hr hstep => hr.step hstep) hp.copier
  · exact hrelays.of_guarded.invariant (I := fun r => r.rules.Sublist (Endpoint.rules α δ))
      (fun _ _ _ hr hstep => (hstep.relays hr).1) hp.rules

theorem steady_of_step (hp : Coupled p) (hsteady : p.copier.Steady) (hcalm : p.Calm event)
    (h : p.Step event p') : p'.copier.Steady := by
  obtain ⟨copied, hcopies⟩ := h.copies hp
  exact hcopies.invariant (fun _ _ _ hr hstep => hr.step (hstep.1 hcalm) hstep.2) hsteady

end Step

theorem coupled_start (o : Opening α) : Coupled ({ thread := o.start } : Application α δ) := by
  refine ⟨?_, Copier.steady_start.toSafe, ?_⟩
  · unfold Opening.start
    split <;> exact ⟨rfl, rfl, rfl, rfl⟩
  · dsimp only
    rw [o.rules_start]

end Application

/-! ## §3 Two programs -/

/-- The two programs. -/
abbrev Applications (α δ : Type) : Type :=
  Side → Application α δ

namespace Applications

variable {α δ : Type} [FdAdapter α δ]

/-- An event of one program. -/
structure Event (δ : Type) where
  side : Side
  event : Application.Event δ

def start (openings : Side → Opening α) : Applications α δ :=
  fun p => { thread := (openings p).start }

/-- One event.  Whatever passes the filter of an adapter has been written by the peer. -/
def Step (n : Applications α δ) (e : Event δ) (m : Applications α δ) : Prop :=
  ∃ q, (n e.side).Step e.event q ∧ m = Function.update n e.side q ∧
    ∀ d ∈ q.thread.endpoint.passed, d ∈ (n e.side.peer).thread.endpoint.wire

/-- The event is calm at its program. -/
def Calm (n : Applications α δ) (e : Event δ) : Prop :=
  (n e.side).Calm e.event

instance (n : Applications α δ) : DecidablePred n.Calm :=
  fun e => inferInstanceAs (Decidable ((n e.side).Calm e.event))

/-- The two endpoints. -/
def threads (n : Applications α δ) : Network α δ := fun p => (n p).thread

/-- What was typed, with SYN and FIN, takes up at most half of the sequence numbers. -/
def Bounded (n : Applications α δ) : Prop :=
  ∀ p, (n p).copier.copier.outbound.arrived.length + 2 ≤ 2 ^ 31

def AllCoupled (n : Applications α δ) : Prop :=
  ∀ p, (n p).Coupled

section Runs

variable {n m : Applications α δ} {e : Event δ} {events : List (Event δ)}
  {openings : Side → Opening α}

omit [FdAdapter α δ] in
theorem threads_update (n : Applications α δ) (p : Side) (q : Application α δ) :
    threads (Function.update n p q) = Function.update (threads n) p q.thread := by
  funext side
  by_cases hside : side = p
  · subst hside
    simp [threads]
  · simp [threads, hside]

theorem AllCoupled.step (h : AllCoupled n) (hstep : Step n e m) : AllCoupled m := by
  obtain ⟨q, hq, rfl, -⟩ := hstep
  exact (Function.forall_update_iff n fun _ q => q.Coupled).mpr
    ⟨(h e.side).step hq, fun p _ => h p⟩

/-- One event is a run of the two endpoints, a calm one if the event is calm. -/
theorem AllCoupled.matched (h : AllCoupled n) (hstep : Step n e m) :
    ∃ events, Trace (Guarded Network.Step fun t j => n.Calm e → t.Calm j) (threads n) events
      (threads m) := by
  obtain ⟨q, hq, rfl, hgenuine⟩ := hstep
  obtain ⟨events, htrace⟩ := hq.relays (h e.side)
  have hrun := Network.trace_of_endpoint (n := threads n) htrace (h e.side).rules hgenuine
  rw [show Function.update (threads n) e.side (n e.side).thread = threads n from
    Function.update_eq_self e.side (threads n)] at hrun
  rw [threads_update]
  exact ⟨events.map (.mk e.side), hrun⟩

theorem allCoupled_start (openings : Side → Opening α) :
    AllCoupled (start openings : Applications α δ) :=
  fun p => Application.coupled_start (openings p)

/-- **A run of two programs is a run of two endpoints.** -/
theorem matched_of_trace (h : Trace Step (start openings) events n) :
    AllCoupled n ∧ ∃ events', Trace Network.Step (Network.start openings) events' (threads n) :=
  h.simulates threads (fun _ _ _ hn hstep => by
    obtain ⟨js, hrun⟩ := hn.matched hstep
    exact ⟨hn.step hstep, js, hrun.of_guarded⟩) (allCoupled_start openings)

/-- A calm run of two programs is a calm run of two endpoints. -/
theorem calm_of_trace (h : Trace (Guarded Step Calm) (start openings) events n) :
    AllCoupled n ∧ ∃ events',
      Trace (Guarded Network.Step Network.Calm) (Network.start openings) events' (threads n) :=
  h.simulates threads (fun _ _ _ hn hstep => by
    obtain ⟨js, hrun⟩ := hn.matched hstep.2
    exact ⟨hn.step hstep.2, js, hrun.mono fun _ _ _ hj => ⟨hj.1 hstep.1, hj.2⟩⟩)
    (allCoupled_start openings)

/-- In a calm run both copy loops are steady. -/
theorem steady_of_trace (h : Trace (Guarded Step Calm) (start openings) events n) (p : Side) :
    (n p).copier.Steady := by
  refine (h.invariant (I := fun n => AllCoupled n ∧ ∀ p, (n p).copier.Steady) ?_
    ⟨allCoupled_start openings, fun _ => Copier.steady_start⟩).2 p
  rintro n e m ⟨hcoupled, hsteady⟩ ⟨hcalm, hstep⟩
  refine ⟨hcoupled.step hstep, ?_⟩
  obtain ⟨q, hq, rfl, -⟩ := hstep
  exact (Function.forall_update_iff n fun _ q => q.copier.Steady).mpr
    ⟨Application.steady_of_step (hcoupled e.side) (hsteady e.side) hcalm hq, fun p _ => hsteady p⟩

theorem Bounded.threads (h : Bounded n) (hcoupled : AllCoupled n) :
    Network.Bounded (threads n) := by
  intro p
  have hle := (hcoupled p).copier.copier.outbound.delivered_arrived.length_le
  have hp := h p
  show (n p).thread.endpoint.outbox.length + 2 ≤ 2 ^ 31
  rw [(hcoupled p).joined.outbox]
  omega

/-- **Standard input to standard output.**  What one program has put on its standard output is a
    prefix of what the other has been given on its standard input.  If in a calm run the copy loop
    returns and the stream from the network has not failed, then it is all of it, and the standard
    input of the other program has ended. -/
theorem output_is_input [LawfulFdAdapter α δ] (h : Trace Step (start openings) events n)
    (hbound : Bounded n) (p : Side) :
    (n p.peer).copier.copier.inbound.delivered <+: (n p).copier.copier.outbound.arrived ∧
    ∀ poll rules s, Trace (Guarded Step Calm) (start openings) events n → poll ≠ .interrupted →
      EventLoop.waitNextEvent (n p.peer).copier.rules (n p.peer).copier.copier poll =
        .ok (.Exit, rules, s) →
      (n p.peer).thread.endpoint.socket.tcp.inboundStream.error = false →
      (n p.peer).copier.copier.inbound.delivered = (n p).copier.copier.outbound.arrived ∧
        (n p).copier.copier.outbound.closed = true := by
  obtain ⟨hcoupled, events', htrace⟩ := matched_of_trace h
  have hbound' := hbound.threads hcoupled
  have hp := hcoupled p
  have hq := hcoupled p.peer
  constructor
  · calc (n p.peer).copier.copier.inbound.delivered
        <+: (n p.peer).copier.copier.inbound.arrived := hq.copier.copier.inbound.delivered_arrived
      _ = (n p.peer).thread.endpoint.inbox := hq.joined.inbox
      _ <+: (n p).thread.endpoint.outbox := Network.inbox_of_trace htrace hbound' p
      _ = (n p).copier.copier.outbound.delivered := hp.joined.outbox
      _ <+: (n p).copier.copier.outbound.arrived := hp.copier.copier.outbound.delivered_arrived
  · intro poll rules s hcalm hpoll hexit herror
    obtain ⟨-, calmEvents, hcalmTrace⟩ := calm_of_trace hcalm
    have hsteadyP := steady_of_trace hcalm p
    have hsteadyQ := steady_of_trace hcalm p.peer
    -- this program is done, so its socket was shut down
    have hdone := (hsteadyQ.exit_iff hpoll).mp ⟨rules, s, hexit⟩
    obtain ⟨-, hall, hclosed⟩ := hsteadyQ.steady.copied hdone
    obtain ⟨hshutdown, hinbox⟩ := Network.inbox_of_shutdown htrace hbound' p
      (hq.joined.inboxClosed.symm.trans hclosed) herror
    -- the other thread ended its stream where its program ended it
    have hattached := (Network.AllAttached.of_trace hcalmTrace p).2
    have hrelayed := ((Network.matched_of_trace htrace).1 p).2
    obtain ⟨houtbox, htaken⟩ := hrelayed.atEof (hattached.shutdown hshutdown)
    rw [htaken, List.take_length] at hinbox
    -- which is the end of its standard input
    have heof := hp.copier.copier.outboundDone (hp.joined.outboxClosed.symm.trans houtbox)
    obtain ⟨hdelivered, hended⟩ :=
      hsteadyP.steady.input.delivered_of_eof hp.copier.copier.outbound heof
    refine ⟨?_, hended⟩
    calc (n p.peer).copier.copier.inbound.delivered
        = (n p.peer).copier.copier.inbound.arrived := hall
      _ = (n p.peer).thread.endpoint.inbox := hq.joined.inbox
      _ = (n p).thread.endpoint.outbox := hinbox
      _ = (n p).copier.copier.outbound.delivered := hp.joined.outbox
      _ = (n p).copier.copier.outbound.arrived := hdelivered

end Runs

/-! ## A session

X copies two bytes to Y, both standard inputs end, and both programs are done. -/

/-- Perform an event, if it is possible and the network does not forge. -/
def perform [DecidableEq δ] (n : Applications α δ) (e : Event δ) : Option (Applications α δ) :=
  match (n e.side).perform e.event with
  | none => none
  | some q =>
    if ∀ d ∈ q.thread.endpoint.passed, d ∈ (n e.side.peer).thread.endpoint.wire then
      some (Function.update n e.side q)
    else none

omit [FdAdapter α δ] in
theorem step_of_perform [DecidableEq δ] {n m : Applications α δ} {e : Event δ}
    (h : n.perform e = some m) : Step n e m := by
  unfold perform at h
  split at h
  · cases h
  · rename_i q hq
    split at h
    · rename_i hgenuine
      cases h
      exact ⟨q, Application.step_of_perform hq, rfl, hgenuine⟩
    · cases h

/-- A pass of the copy loop in which one rule is ready and others may be told of a hang-up. -/
def copyPass (side : Side) (rule : ℕ) (hung : List ℕ := []) : Event Bytes :=
  ⟨side, .copy (.reported (fun i => { event := i == rule, hup := hung.contains i })
    fun _ => { amount := 5 })⟩

/-- A pass of the thread in which one rule is ready. -/
def relayPass (side : Side) (rule : ℕ) (datagram : Bytes := [0]) (amount : ℕ := 0) : Event Bytes :=
  ⟨side, .relay (.reported (fun i => { event := i == rule }) fun _ => { datagram, amount })⟩

def copySession : List (Event Bytes) :=
  -- the connection is opened
  [relayPass .X 3, relayPass .Y 0 Network.sessionSyn, relayPass .Y 3,
    relayPass .X 0 Network.sessionSynAck,
    -- X reads its standard input to the end
    ⟨.X, .typed [42, 43]⟩, ⟨.X, .endOfInput⟩, copyPass .X 0, copyPass .X 0, copyPass .X 0,
    relayPass .X 1 [0] 5, relayPass .X 1, relayPass .X 2,
    -- the FIN overtakes the data
    relayPass .Y 0 Network.sessionFin, relayPass .Y 0 Network.sessionData, relayPass .Y 2 [0] 5,
    copyPass .Y 2, copyPass .Y 2, copyPass .Y 2,
    -- Y has nothing to say
    ⟨.Y, .endOfInput⟩, copyPass .Y 0, copyPass .Y 0, relayPass .Y 1, relayPass .Y 2,
    -- the socket of X hangs up when both directions are shut down
    relayPass .X 0 Network.sessionPeerFin, relayPass .X 1, copyPass .X 1 [0, 1], copyPass .X 1 [0]]

/-- The session is a calm run, and after it both copy loops return. -/
theorem output_is_input_session : ∃ n : Applications TCPOverIPv4OverTunFdAdapter Bytes,
    Trace (Guarded Step Calm) (start Network.sessionOpenings) copySession n ∧
      (∀ p, ∃ rules s, EventLoop.waitNextEvent (n p).copier.rules (n p).copier.copier .timeout =
        .ok (.Exit, rules, s)) ∧
      (n .Y).copier.copier.inbound.delivered = [42, 43] := by
  have hrun : ((copySession.foldlM (performIf Calm perform) (start Network.sessionOpenings)).map
      fun n : Applications TCPOverIPv4OverTunFdAdapter Bytes =>
        (decide (Copier.Done (n .X).copier.copier), decide (Copier.Done (n .Y).copier.copier),
          (n .Y).thread.endpoint.socket.tcp.inboundStream.error,
          (n .X).copier.copier.outbound.arrived, (n .Y).copier.copier.outbound.arrived)) =
      some (true, true, false, [42, 43], []) := by
    decide +kernel
  obtain ⟨n, hn, hend⟩ := Option.map_eq_some_iff.mp hrun
  simp only [Prod.mk.injEq, decide_eq_true_eq] at hend
  obtain ⟨hdoneX, hdoneY, herror, hX, hY⟩ := hend
  have htrace : Trace (Guarded Step Calm) _ _ n :=
    .of_performIf (fun _ _ _ => step_of_perform) hn
  have hbound : Bounded n := by
    intro p
    cases p
    · rw [hX]
      decide
    · rw [hY]
      decide
  have hpoll : (.timeout : Poll CopyAnswer) ≠ .interrupted := by simp
  have hreturns : ∀ p, ∃ rules s,
      EventLoop.waitNextEvent (n p).copier.rules (n p).copier.copier .timeout =
        .ok (.Exit, rules, s) := by
    intro p
    refine ((steady_of_trace htrace p).exit_iff hpoll).mpr ?_
    cases p
    · exact hdoneX
    · exact hdoneY
  obtain ⟨rules, s, hexit⟩ := hreturns .Y
  have hall := ((output_is_input htrace.of_guarded hbound .X).2 .timeout rules s htrace hpoll hexit
    herror).1
  exact ⟨n, htrace, hreturns, hall.trans hX⟩

end Applications

end Sponge
