import Sponge.Endpoint
import Sponge.StreamCopy

/-!
# The Programs

Model of `main` in `apps/tcp_ipv4.cc` and `apps/tcp_udp.cc` when the socket is open.  The main
thread is in `bidirectional_stream_copy(tcp_socket)`, and the thread of the socket in its event
loop.  Each has one end of a pair of stream sockets.

## Modelling notes

- What one thread has written to the socket pair is what has arrived for the other one, and an
  end that has been shut down is the end of the file for the other one.
- A write to an end that has been shut down fails.
- The threads take turns at the granularity of a pass.
- The copy loop may run before the connection is open, which the programs wait for.
- When the thread ends, `_tcp_main` shuts down the other end as well.  Nothing that has been written
  is lost by that, and later writes fail, as any call may.
-/

namespace Sponge

open EventLoop (Poll)

/-- A program: the copy loop and the thread of its socket. -/
structure Application (α δ : Type) where
  copier : Copier.Running := {}
  thread : Endpoint.Running α δ

namespace Application

variable {α δ : Type} [FdAdapter α δ]

/-- What has been copied to the socket is there for the thread. -/
def sent (p : Application α δ) : Application α δ :=
  { p with thread := { p.thread with endpoint := { p.thread.endpoint with
      outbox := p.copier.copier.outbound.delivered
      outboxClosed := p.copier.copier.outboundShutdown } } }

/-- What the thread has written is there for the copy loop. -/
def received (p : Application α δ) : Application α δ :=
  { p with copier := { p.copier with copier := { p.copier.copier with
      inbound := { p.copier.copier.inbound with
        arrived := p.thread.endpoint.inbox
        closed := p.thread.endpoint.socket.inboundShutdown } } } }

/-- What happens to a program. -/
inductive Event (δ : Type) where
  /-- a pass of the copy loop -/
  | copy (poll : Poll CopyAnswer)
  /-- a pass of the thread's loop -/
  | relay (poll : Poll (SystemAnswer δ))
  | tick (ms : UInt64)
  | typed (data : Bytes)
  | endOfInput

/-- One event of a run.  An exception in either thread ends the run. -/
def Step (p : Application α δ) : Event δ → Application α δ → Prop
  | .copy poll, p' => ∃ copier, p.copier.Step (.waitNextEvent poll) copier ∧
    p' = sent { p with copier }
  | .relay poll, p' => ∃ thread, p.thread.Step (.waitNextEvent poll) thread ∧
    (p.thread.endpoint.socket.inboundShutdown = true →
      thread.endpoint.inbox = p.thread.endpoint.inbox) ∧
    p' = received { p with thread }
  | .tick ms, p' => ∃ thread, p.thread.Step (.tick ms) thread ∧ p' = { p with thread }
  | .typed data, p' => ∃ copier, p.copier.Step (.typed data) copier ∧ p' = { p with copier }
  | .endOfInput, p' => ∃ copier, p.copier.Step .endOfInput copier ∧ p' = { p with copier }

/-- Perform an event, if it is possible. -/
def perform (p : Application α δ) : Event δ → Option (Application α δ)
  | .copy poll => (p.copier.perform (.waitNextEvent poll)).map fun copier => sent { p with copier }
  | .relay poll =>
    match p.thread.perform (.waitNextEvent poll) with
    | some thread =>
      if p.thread.endpoint.socket.inboundShutdown = true →
          thread.endpoint.inbox = p.thread.endpoint.inbox then
        some (received { p with thread })
      else none
    | none => none
  | .tick ms => (p.thread.perform (.tick ms)).map fun thread => { p with thread }
  | .typed data => (p.copier.perform (.typed data)).map fun copier => { p with copier }
  | .endOfInput => (p.copier.perform .endOfInput).map fun copier => { p with copier }

omit [FdAdapter α δ] in
theorem step_of_perform {p p' : Application α δ} {event : Event δ}
    (h : p.perform event = some p') : p.Step event p' := by
  have hcopier : ∀ {e : Copier.Event} {f : Copier.Running → Application α δ},
      (p.copier.perform e).map f = some p' → ∃ copier, p.copier.Step e copier ∧ p' = f copier := by
    intro e f hrun
    obtain ⟨copier, hperform, rfl⟩ := Option.map_eq_some_iff.mp hrun
    exact ⟨copier, Copier.Running.step_of_perform hperform, rfl⟩
  cases event with
  | copy poll => exact hcopier h
  | relay poll =>
    simp only [perform] at h
    split at h
    · rename_i thread hthread
      split at h
      · rename_i hquiet
        cases h
        exact ⟨thread, Endpoint.Running.step_of_perform hthread, hquiet, rfl⟩
      · cases h
    · cases h
  | tick ms =>
    rw [perform] at h
    obtain ⟨thread, hperform, rfl⟩ := Option.map_eq_some_iff.mp h
    exact ⟨thread, Endpoint.Running.step_of_perform hperform, rfl⟩
  | typed data => exact hcopier h
  | endOfInput => exact hcopier h

end Application

end Sponge
