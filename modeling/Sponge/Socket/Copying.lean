import Sponge.Socket.Passes
import Sponge.StreamCopy

/-!
# What the Copy Loop Copies

* **One direction** (`Conduit.Carried`): what the destination has taken is a prefix of what has
  arrived at the source, whatever happens.
* **While nothing hangs up** (`Conduit.Orderly`): nothing is dropped between the two, and the
  stream ends only at the end of its source.
* **The loop** (`Copier.Steady`, `copy_returns_when_done`): it returns exactly when both directions
  are done, and then everything has been copied.
-/

namespace Sponge

open EventLoop (Rule Poll)
open Execution (Trace Guarded performIf)

/-! ## §1 One direction -/

namespace Conduit

/-- What holds of a direction in any case. -/
structure Carried (c : Conduit) : Prop where
  written : c.stream.written <+: c.arrived.take c.taken
  whole : c.stream.inputEnded = false → c.stream.written = c.arrived.take c.taken
  taken_le : c.taken ≤ c.arrived.length
  delivered : c.delivered = c.stream.written.take c.stream.bytesRead

/-- What holds besides while nothing hangs up.  `fd` is the descriptor of the source. -/
structure Orderly (fd : FileDescriptor) (c : Conduit) : Prop where
  whole : c.stream.written = c.arrived.take c.taken
  ended : fd.eof = c.stream.inputEnded
  atEof : fd.eof = true → c.closed = true ∧ c.taken = c.arrived.length
  sound : c.stream.error = false
  capacity : c.stream.capacity = 1048576

/-- What the callbacks do to a direction: they leave its source alone, they only deliver more, and
    a stream at its end stays there. -/
structure Pumps (c c' : Conduit) : Prop where
  arrived : c'.arrived = c.arrived
  closed : c'.closed = c.closed
  delivered : c.delivered <+: c'.delivered
  eof : c.stream.eof = true → c'.stream.eof = true ∧ c'.delivered = c.delivered

theorem Pumps.refl (c : Conduit) : Pumps c c :=
  ⟨rfl, rfl, List.prefix_rfl, fun heof => ⟨heof, rfl⟩⟩

theorem Pumps.trans {c d e : Conduit} (h₁ : Pumps c d) (h₂ : Pumps d e) : Pumps c e where
  arrived := h₂.arrived.trans h₁.arrived
  closed := h₂.closed.trans h₁.closed
  delivered := h₁.delivered.trans h₂.delivered
  eof heof :=
    have hd := h₁.eof heof
    have he := h₂.eof hd.1
    ⟨he.1, he.2.trans hd.2⟩

theorem Carried.delivered_arrived {c : Conduit} (h : Carried c) : c.delivered <+: c.arrived := by
  rw [h.delivered]
  exact ((List.take_prefix _ _).trans h.written).trans (List.take_prefix _ _)

section Fill

variable {fd fd' : FileDescriptor} {c c' : Conduit} {a : CopyAnswer}

/-- The bytes that are read. -/
def dataRead (c : Conduit) (a : CopyAnswer) : Bytes :=
  (c.pending.take (a.amount + 1)).take (min (1024 * 1024) c.stream.remainingCapacity)

theorem dataRead_pending (c : Conduit) (a : CopyAnswer) : c.dataRead a <+: c.arrived.drop c.taken :=
  (List.take_prefix _ _).trans (List.take_prefix _ _)

/-- The stream has room for what is read. -/
theorem accepted_dataRead (hopen : c.stream.inputEnded = false) (a : CopyAnswer) :
    c.stream.accepted (c.dataRead a) = c.dataRead a := by
  rw [ByteStream.accepted, hopen, if_neg Bool.false_ne_true]
  refine List.take_of_length_le ?_
  rw [dataRead, List.length_take]
  omega

/-- The ways through the callback that reads. -/
theorem fill_cases (h : fill fd c a = .ok (fd', c')) :
    (c.pending = [] → c.closed = true) ∧
      (fd'.eof = true ↔ fd.eof = true ∨ (0 < c.stream.remainingCapacity ∧ c.dataRead a = [])) ∧
      fd'.closed = fd.closed ∧ fd'.readCount = fd.readCount + 1 ∧
      c' = { c with
        stream := if fd'.eof then (c.stream.write (c.dataRead a)).1.endInput
          else (c.stream.write (c.dataRead a)).1
        taken := c.taken + (c.dataRead a).length } := by
  unfold fill at h
  split at h
  · cases h
  · rename_i hreadable
    simp only [Bool.or_eq_true, Bool.and_eq_true, List.isEmpty_iff, Bool.not_eq_true', not_or,
      not_and, Bool.not_eq_false] at hreadable
    cases h
    exact ⟨hreadable.2, FileDescriptor.eof_read_iff _ _ _, FileDescriptor.closed_read _ _ _,
      FileDescriptor.readCount_read _ _ _, rfl⟩

/-- If nothing is read although there is room, the source is at its end. -/
theorem atEnd_of_dataRead (h : Carried c) (hclosed : c.pending = [] → c.closed = true)
    (hroom : 0 < c.stream.remainingCapacity) (hempty : c.dataRead a = []) :
    c.closed = true ∧ c.taken = c.arrived.length := by
  have hpending : c.pending = [] := by
    have hlength := congrArg List.length hempty
    rw [dataRead, List.length_take, List.length_take, List.length_nil] at hlength
    exact List.length_eq_zero_iff.mp (by omega)
  refine ⟨hclosed hpending, ?_⟩
  have hle := h.taken_le
  have hlength := congrArg List.length hpending
  rw [pending, List.length_drop, List.length_nil] at hlength
  omega

theorem Carried.fill (h : Carried c) (hrun : fill fd c a = .ok (fd', c')) : Carried c' := by
  obtain ⟨-, -, -, -, rfl⟩ := fill_cases hrun
  have hpending := c.dataRead_pending a
  have hlength := hpending.length_le
  rw [List.length_drop] at hlength
  have htake : c.arrived.take (c.taken + (c.dataRead a).length) =
      c.arrived.take c.taken ++ c.dataRead a := by
    rw [List.take_add, ← List.prefix_iff_eq_take.mp hpending]
  -- the end of the stream is not looked at
  have hstream : Carried { c with
      stream := (c.stream.write (c.dataRead a)).1
      taken := c.taken + (c.dataRead a).length } := by
    refine ⟨?_, fun hopen => ?_, ?_, ?_⟩ <;> dsimp only
    · rw [htake, ByteStream.write_written]
      cases hended : c.stream.inputEnded with
      | true =>
        rw [ByteStream.accepted, hended, if_pos rfl, List.append_nil]
        exact h.written.trans (List.prefix_append _ _)
      | false => rw [accepted_dataRead hended, h.whole hended]
    · rw [ByteStream.write_inputEnded] at hopen
      rw [htake, ByteStream.write_written, accepted_dataRead hopen, h.whole hopen]
    · have hle := h.taken_le
      omega
    · rw [ByteStream.write_written, ByteStream.write_bytesRead,
        List.take_append_of_le_length c.stream.bytesRead_le]
      exact h.delivered
  split
  · exact ⟨hstream.written, by rintro ⟨⟩, hstream.taken_le, hstream.delivered⟩
  · exact hstream

theorem Orderly.fill (h : Orderly fd c) (hc : Carried c) (hrun : fill fd c a = .ok (fd', c')) :
    Orderly fd' c' := by
  obtain ⟨hclosed, heof, -, -, rfl⟩ := fill_cases hrun
  have hpending := c.dataRead_pending a
  have hend : fd'.eof = true → c.closed = true ∧ c.taken = c.arrived.length := by
    intro hfd'
    rcases heof.mp hfd' with hold | ⟨hroom, hempty⟩
    · exact h.atEof hold
    · exact atEnd_of_dataRead hc hclosed hroom hempty
  -- at the end nothing is read
  have hnothing : fd'.eof = true → c.dataRead a = [] := by
    intro hfd'
    have hlength := hpending.length_le
    rw [List.length_drop, (hend hfd').2] at hlength
    exact List.length_eq_zero_iff.mp (by omega)
  have hwritten : (c.stream.write (c.dataRead a)).1.written =
      c.arrived.take (c.taken + (c.dataRead a).length) := by
    rw [List.take_add, ← List.prefix_iff_eq_take.mp hpending, ByteStream.write_written, h.whole]
    cases hended : c.stream.inputEnded with
    | true =>
      -- the descriptor was at its end before
      rw [hnothing (heof.mpr (.inl (h.ended.trans hended))), ByteStream.accepted, hended]
      rfl
    | false => rw [accepted_dataRead hended]
  refine ⟨?_, ?_, fun hfd' => ?_, ?_, ?_⟩ <;> dsimp only
  · split <;> exact hwritten
  · cases hfd' : fd'.eof with
    | true => rfl
    | false =>
      have hold : fd.eof = false := by
        by_contra hold
        rw [heof.mpr (.inl (by simpa using hold))] at hfd'
        cases hfd'
      rw [if_neg Bool.false_ne_true, ByteStream.write_inputEnded, ← h.ended, hold]
  · rw [hnothing hfd', List.length_nil, Nat.add_zero]
    exact hend hfd'
  · split
    · exact (ByteStream.write_error _ _).trans h.sound
    · exact (ByteStream.write_error _ _).trans h.sound
  · split
    · exact (ByteStream.write_capacity _ _).trans h.capacity
    · exact (ByteStream.write_capacity _ _).trans h.capacity

theorem Pumps.fill (hrun : Conduit.fill fd c a = .ok (fd', c')) : Pumps c c' := by
  obtain ⟨-, -, -, -, rfl⟩ := fill_cases hrun
  refine ⟨rfl, rfl, List.prefix_rfl, fun heof => ⟨?_, rfl⟩⟩
  obtain ⟨hended, hempty⟩ := (ByteStream.eof_iff _).mp heof
  -- nothing is accepted any more
  have hwrite : (c.stream.write (c.dataRead a)).1 = c.stream := by
    rw [ByteStream.write, if_pos hended]
  rw [hwrite, ByteStream.eof_iff]
  split
  · exact ⟨rfl, hempty⟩
  · exact ⟨hended, hempty⟩

end Fill

section Drain

variable {fd fd' : FileDescriptor} {c c' : Conduit} {a : CopyAnswer}

/-- What the callback that writes does. -/
theorem drain_cases (h : drain fd c a = .ok (fd', c')) : ∃ n,
    fd' = fd.registerWrite ∧
      c' = { c with
        stream := c.stream.popOutput n
        delivered := c.delivered ++ c.stream.peekOutput n } := by
  unfold drain at h
  split at h
  · cases h
  · dsimp only at h
    split at h
    · cases h
    · cases h
      refine ⟨min a.amount (c.stream.peekOutput (min maxCopyLength c.stream.bufferSize)).length,
        rfl, ?_⟩
      congr 2
      simp only [ByteStream.peekOutput, ByteStream.bufferSize, List.take_take, List.length_take]
      congr 1
      omega

theorem Carried.drain (h : Carried c) (hrun : drain fd c a = .ok (fd', c')) : Carried c' := by
  obtain ⟨n, -, rfl⟩ := drain_cases hrun
  refine ⟨h.written, h.whole, h.taken_le, ?_⟩
  dsimp only
  rw [h.delivered]
  exact (c.stream.take_popOutput_bytesRead n).symm

/-- Writing leaves the source alone. -/
theorem Orderly.drain {source : FileDescriptor} (h : Orderly source c)
    (hrun : drain fd c a = .ok (fd', c')) : Orderly source c' := by
  obtain ⟨n, -, rfl⟩ := drain_cases hrun
  exact ⟨h.whole, h.ended, h.atEof, h.sound, h.capacity⟩

theorem Pumps.drain (hrun : Conduit.drain fd c a = .ok (fd', c')) : Pumps c c' := by
  obtain ⟨n, -, rfl⟩ := drain_cases hrun
  refine ⟨rfl, rfl, List.prefix_append _ _, fun heof => ?_⟩
  obtain ⟨hended, hempty⟩ := (ByteStream.eof_iff _).mp heof
  rw [ByteStream.eof_iff]
  exact ⟨⟨hended, by simp [hempty]⟩, by simp [ByteStream.peekOutput, hempty]⟩

end Drain

variable {fd : FileDescriptor} {c : Conduit}

theorem Carried.endInput (h : Carried c) : Carried c.endInput :=
  ⟨h.written, by rintro ⟨⟩, h.taken_le, h.delivered⟩

theorem Pumps.endInput (c : Conduit) : Pumps c c.endInput := by
  refine ⟨rfl, rfl, List.prefix_rfl, fun heof => ⟨?_, rfl⟩⟩
  rw [Conduit.endInput, ByteStream.eof_iff]
  exact ⟨rfl, ((ByteStream.eof_iff _).mp heof).2⟩

theorem Carried.arrive (h : Carried c) (data : Bytes) : Carried (c.arrive data) := by
  have htake : (c.arrived ++ data).take c.taken = c.arrived.take c.taken :=
    List.take_append_of_le_length h.taken_le
  refine ⟨?_, ?_, ?_, h.delivered⟩ <;> unfold Conduit.arrive <;> dsimp only
  · rw [htake]
    exact h.written
  · rw [htake]
    exact h.whole
  · rw [List.length_append]
    exact h.taken_le.trans (Nat.le_add_right _ _)

theorem Carried.close (h : Carried c) : Carried c.close :=
  ⟨h.written, h.whole, h.taken_le, h.delivered⟩

theorem Orderly.arrive (h : Orderly fd c) (hc : Carried c) (hopen : c.closed = false)
    (data : Bytes) : Orderly fd (c.arrive data) := by
  refine ⟨?_, h.ended, fun heof => ?_, h.sound, h.capacity⟩
  · unfold Conduit.arrive
    dsimp only
    rw [List.take_append_of_le_length hc.taken_le]
    exact h.whole
  · rw [(h.atEof heof).1] at hopen
    cases hopen

/-- Writing to the descriptor of the source does not concern the direction. -/
theorem Orderly.registerWrite (h : Orderly fd c) : Orderly fd.registerWrite c :=
  ⟨h.whole, h.ended, h.atEof, h.sound, h.capacity⟩

theorem Orderly.close (h : Orderly fd c) : Orderly fd c.close :=
  ⟨h.whole, h.ended, fun heof => ⟨rfl, (h.atEof heof).2⟩, h.sound, h.capacity⟩

/-- When the stream is at its end, all that has arrived has been delivered. -/
theorem Orderly.delivered_of_eof (h : Orderly fd c) (hc : Carried c) (heof : c.stream.eof = true) :
    c.delivered = c.arrived ∧ c.closed = true := by
  obtain ⟨hended, hempty⟩ := (ByteStream.eof_iff _).mp heof
  obtain ⟨hclosed, htaken⟩ := h.atEof (h.ended.trans hended)
  refine ⟨?_, hclosed⟩
  have hwritten : c.stream.written = c.arrived := by rw [h.whole, htaken, List.take_length]
  rw [hc.delivered, hwritten]
  refine List.take_of_length_le ?_
  have hcount := ByteStream.bytesWritten_eq_add c.stream
  rw [hempty, ByteStream.bytesWritten_eq, hwritten] at hcount
  exact hcount.le

/-- Ending a stream that has ended does nothing. -/
theorem endInput_of_ended (h : c.stream.inputEnded = true) : c.endInput = c := by
  obtain ⟨⟨⟩, _, _, _, _⟩ := c
  cases h
  rfl

end Conduit

/-! ## §2 The callbacks -/

namespace Copier

open Conduit (Carried Orderly)

section Callbacks

variable {s t : Copier} {a : CopyAnswer}

theorem readInput_cases (h : readInput a s = .ok t) : ∃ input outbound,
    Conduit.fill s.input s.outbound a = .ok (input, outbound) ∧ t = { s with input, outbound } := by
  unfold readInput at h
  cases hfill : Conduit.fill s.input s.outbound a with
  | error e =>
    rw [hfill] at h
    cases h
  | ok result =>
    rw [hfill] at h
    cases h
    exact ⟨result.1, result.2, rfl, rfl⟩

theorem readSocket_cases (h : readSocket a s = .ok t) : ∃ socket inbound,
    Conduit.fill s.socket s.inbound a = .ok (socket, inbound) ∧ t = { s with socket, inbound } := by
  unfold readSocket at h
  cases hfill : Conduit.fill s.socket s.inbound a with
  | error e =>
    rw [hfill] at h
    cases h
  | ok result =>
    rw [hfill] at h
    cases h
    exact ⟨result.1, result.2, rfl, rfl⟩

theorem writeSocket_cases (h : writeSocket a s = .ok t) : ∃ socket outbound,
    Conduit.drain s.socket s.outbound a = .ok (socket, outbound) ∧
      ((outbound.stream.eof = true ∧
          t = { s with socket := socket.registerWrite, outbound, outboundShutdown := true }) ∨
        (outbound.stream.eof = false ∧ t = { s with socket, outbound })) := by
  unfold writeSocket at h
  cases hdrain : Conduit.drain s.socket s.outbound a with
  | error e =>
    rw [hdrain] at h
    cases h
  | ok result =>
    obtain ⟨socket, outbound⟩ := result
    rw [hdrain, Loop.ok_bind] at h
    dsimp only at h
    refine ⟨socket, outbound, rfl, ?_⟩
    split at h
    · rename_i heof
      cases h
      exact .inl ⟨heof, rfl⟩
    · rename_i hopen
      cases h
      exact .inr ⟨by simpa using hopen, rfl⟩

theorem writeOutput_cases (h : writeOutput a s = .ok t) : ∃ output inbound,
    Conduit.drain s.output s.inbound a = .ok (output, inbound) ∧
      ((inbound.stream.eof = true ∧ t = { s with
          output := { output with eof := true, closed := true }
          inbound, inboundShutdown := true }) ∨
        (inbound.stream.eof = false ∧ t = { s with output, inbound })) := by
  unfold writeOutput at h
  cases hdrain : Conduit.drain s.output s.inbound a with
  | error e =>
    rw [hdrain] at h
    cases h
  | ok result =>
    obtain ⟨output, inbound⟩ := result
    rw [hdrain, Loop.ok_bind] at h
    dsimp only at h
    refine ⟨output, inbound, rfl, ?_⟩
    split at h
    · rename_i heof
      cases h
      exact .inl ⟨heof, rfl⟩
    · rename_i hopen
      cases h
      exact .inr ⟨by simpa using hopen, rfl⟩

end Callbacks

/-- What holds of both directions in any case. -/
structure Safe (s : Copier) : Prop where
  outbound : Carried s.outbound
  inbound : Carried s.inbound
  -- a direction is shut down at the end of its stream
  outboundDone : s.outboundShutdown = true → s.outbound.stream.eof = true
  inboundDone : s.inboundShutdown = true → s.inbound.stream.eof = true

/-- What the callbacks do to both directions. -/
structure Pumps (s t : Copier) : Prop where
  outbound : Conduit.Pumps s.outbound t.outbound
  inbound : Conduit.Pumps s.inbound t.inbound
  outboundShutdown : s.outboundShutdown = true → t.outboundShutdown = true

theorem Pumps.refl (s : Copier) : Pumps s s :=
  ⟨.refl _, .refl _, id⟩

theorem Pumps.trans {s t u : Copier} (h₁ : Pumps s t) (h₂ : Pumps t u) : Pumps s u :=
  ⟨h₁.outbound.trans h₂.outbound, h₁.inbound.trans h₂.inbound,
    h₂.outboundShutdown ∘ h₁.outboundShutdown⟩

/-- What holds besides while nothing hangs up. -/
structure Steady (s : Copier) : Prop extends Safe s where
  input : Orderly s.input s.outbound
  socket : Orderly s.socket s.inbound
  -- only the standard output is ever closed
  inputOpen : s.input.closed = false
  socketOpen : s.socket.closed = false
  outputClosed : s.output.closed = true → s.inboundShutdown = true

/-- The flags of the descriptors that are set stay set. -/
structure Ages (s t : Copier) : Prop where
  input : s.input.eof = true → t.input.eof = true
  inputClosed : t.input.closed = s.input.closed
  socket : s.socket.eof = true → t.socket.eof = true
  socketClosed : t.socket.closed = s.socket.closed
  output : s.output.closed = true → t.output.closed = true

theorem Ages.refl (s : Copier) : Ages s s :=
  ⟨id, rfl, id, rfl, id⟩

theorem Ages.trans {s t u : Copier} (h₁ : Ages s t) (h₂ : Ages t u) : Ages s u :=
  ⟨h₂.input ∘ h₁.input, h₂.inputClosed.trans h₁.inputClosed, h₂.socket ∘ h₁.socket,
    h₂.socketClosed.trans h₁.socketClosed, h₂.output ∘ h₁.output⟩

section Rules

variable {s t : Copier} {a : CopyAnswer} {rule : Rule Copier CopyAnswer CopyException}

/-- The input of one direction is filled or ended. -/
theorem Safe.of_source (h : Safe s) {outbound inbound : Conduit} (hout : Carried outbound)
    (hpumpsOut : Conduit.Pumps s.outbound outbound) (hin : Carried inbound)
    (hpumpsIn : Conduit.Pumps s.inbound inbound) (input socket : FileDescriptor) :
    Safe { s with input, socket, outbound, inbound } ∧
      Pumps s { s with input, socket, outbound, inbound } :=
  ⟨⟨hout, hin, fun hdone => (hpumpsOut.eof (h.outboundDone hdone)).1,
    fun hdone => (hpumpsIn.eof (h.inboundDone hdone)).1⟩, ⟨hpumpsOut, hpumpsIn, id⟩⟩

/-- A rule that is cancelled ends the input of its stream. -/
theorem Safe.cancel (h : Safe s) (hrule : rule ∈ rules) :
    Safe (rule.cancel s) ∧ Pumps s (rule.cancel s) := by
  simp only [rules, List.mem_cons, List.not_mem_nil, or_false] at hrule
  have hout := h.of_source h.outbound.endInput (.endInput _) h.inbound (.refl _) s.input s.socket
  have hin := h.of_source h.outbound (.refl _) h.inbound.endInput (.endInput _) s.input s.socket
  rcases hrule with rfl | rfl | rfl | rfl
  · exact hout
  · exact hout
  · exact hin
  · exact hin

/-- Every callback keeps what holds in any case. -/
theorem Safe.callback (h : Safe s) (hrule : rule ∈ rules) (hrun : rule.callback a s = .ok t) :
    Safe t ∧ Pumps s t := by
  simp only [rules, List.mem_cons, List.not_mem_nil, or_false] at hrule
  rcases hrule with rfl | rfl | rfl | rfl
  · obtain ⟨input, outbound, hfill, rfl⟩ := readInput_cases hrun
    exact h.of_source (h.outbound.fill hfill) (.fill hfill) h.inbound (.refl _) input s.socket
  · obtain ⟨socket, outbound, hdrain, hend⟩ := writeSocket_cases hrun
    have hout := h.outbound.drain hdrain
    have hpumps : Conduit.Pumps s.outbound outbound := .drain hdrain
    rcases hend with ⟨heof, rfl⟩ | ⟨-, rfl⟩
    · exact ⟨⟨hout, h.inbound, fun _ => heof, h.inboundDone⟩, ⟨hpumps, .refl _, fun _ => rfl⟩⟩
    · exact h.of_source hout hpumps h.inbound (.refl _) s.input socket
  · obtain ⟨socket, inbound, hfill, rfl⟩ := readSocket_cases hrun
    exact h.of_source h.outbound (.refl _) (h.inbound.fill hfill) (.fill hfill) s.input socket
  · obtain ⟨output, inbound, hdrain, hend⟩ := writeOutput_cases hrun
    have hin := h.inbound.drain hdrain
    have hpumps : Conduit.Pumps s.inbound inbound := .drain hdrain
    rcases hend with ⟨heof, rfl⟩ | ⟨-, rfl⟩
    · exact ⟨⟨h.outbound, hin, h.outboundDone, fun _ => heof⟩, ⟨.refl _, hpumps, id⟩⟩
    · exact ⟨⟨h.outbound, hin, h.outboundDone, fun hdone => (hpumps.eof (h.inboundDone hdone)).1⟩,
        ⟨.refl _, hpumps, id⟩⟩

/-- Every callback keeps what holds while nothing hangs up. -/
theorem Steady.callback (h : Steady s) (hrule : rule ∈ rules) (hrun : rule.callback a s = .ok t) :
    Steady t ∧ Ages s t := by
  have hsafe := (h.toSafe.callback hrule hrun).1
  simp only [rules, List.mem_cons, List.not_mem_nil, or_false] at hrule
  rcases hrule with rfl | rfl | rfl | rfl
  · obtain ⟨input, outbound, hfill, rfl⟩ := readInput_cases hrun
    obtain ⟨-, heof, hclosed, -⟩ := Conduit.fill_cases hfill
    exact ⟨{ h with
      toSafe := hsafe
      input := h.input.fill h.outbound hfill
      inputOpen := hclosed.trans h.inputOpen },
      ⟨fun hold => heof.mpr (.inl hold), hclosed, id, rfl, id⟩⟩
  · obtain ⟨socket, outbound, hdrain, hend⟩ := writeSocket_cases hrun
    obtain ⟨n, rfl, -⟩ := Conduit.drain_cases hdrain
    rcases hend with ⟨heof, rfl⟩ | ⟨-, rfl⟩
    · exact ⟨{ h with
        toSafe := hsafe
        input := h.input.drain hdrain
        socket := h.socket.registerWrite.registerWrite }, ⟨id, rfl, id, rfl, id⟩⟩
    · exact ⟨{ h with
        toSafe := hsafe
        input := h.input.drain hdrain
        socket := h.socket.registerWrite }, ⟨id, rfl, id, rfl, id⟩⟩
  · obtain ⟨socket, inbound, hfill, rfl⟩ := readSocket_cases hrun
    obtain ⟨-, heof, hclosed, -⟩ := Conduit.fill_cases hfill
    exact ⟨{ h with
      toSafe := hsafe
      socket := h.socket.fill h.inbound hfill
      socketOpen := hclosed.trans h.socketOpen },
      ⟨id, rfl, fun hold => heof.mpr (.inl hold), hclosed, id⟩⟩
  · obtain ⟨output, inbound, hdrain, hend⟩ := writeOutput_cases hrun
    obtain ⟨n, rfl, -⟩ := Conduit.drain_cases hdrain
    rcases hend with ⟨heof, rfl⟩ | ⟨-, rfl⟩
    · exact ⟨{ h with
        toSafe := hsafe
        socket := h.socket.drain hdrain
        outputClosed := fun _ => rfl }, ⟨id, rfl, id, rfl, fun _ => rfl⟩⟩
    · exact ⟨{ h with
        toSafe := hsafe
        socket := h.socket.drain hdrain }, ⟨id, rfl, id, rfl, id⟩⟩

/-- Which rules are defunct. -/
theorem Steady.defunct (h : Steady s) :
    (rule1.Defunct s ↔ s.outbound.stream.inputEnded = true) ∧ ¬ rule2.Defunct s ∧
      (rule3.Defunct s ↔ s.inbound.stream.inputEnded = true) ∧
      (rule4.Defunct s ↔ s.output.closed = true) := by
  have hinput := h.inputOpen
  have hsocket := h.socketOpen
  rw [← h.input.ended, ← h.socket.ended]
  simp [Rule.Defunct, rule1, rule2, rule3, rule4, hinput, hsocket]

/-- A rule that is defunct has nothing to cancel. -/
theorem Steady.idle (h : Steady s) (hrule : rule ∈ rules) (hdefunct : rule.Defunct s) :
    rule.cancel s = s := by
  obtain ⟨h₁, h₂, h₃, h₄⟩ := h.defunct
  simp only [rules, List.mem_cons, List.not_mem_nil, or_false] at hrule
  rcases hrule with rfl | rfl | rfl | rfl
  · show { s with outbound := s.outbound.endInput } = s
    rw [Conduit.endInput_of_ended (h₁.mp hdefunct)]
  · exact absurd hdefunct h₂
  · show { s with inbound := s.inbound.endInput } = s
    rw [Conduit.endInput_of_ended (h₃.mp hdefunct)]
  · show { s with inbound := s.inbound.endInput } = s
    have heof := h.inboundDone (h.outputClosed (h₄.mp hdefunct))
    rw [Conduit.endInput_of_ended ((ByteStream.eof_iff _).mp heof).1]

theorem defunct_of_ages (h : Ages s t) (hrule : rule ∈ rules) (hdefunct : rule.Defunct s) :
    rule.Defunct t := by
  simp only [rules, List.mem_cons, List.not_mem_nil, or_false] at hrule
  rcases hrule with rfl | rfl | rfl | rfl
  · exact hdefunct.imp (fun hold => ⟨rfl, h.input hold.2⟩) fun hold => h.inputClosed.trans hold
  · exact hdefunct.imp (fun hold => absurd hold.1 (by decide)) fun hold => h.socketClosed.trans hold
  · exact hdefunct.imp (fun hold => ⟨rfl, h.socket hold.2⟩) fun hold => h.socketClosed.trans hold
  · exact hdefunct.imp (fun hold => absurd hold.1 (by decide)) h.output

end Rules

/-! ## §3 The end of the loop -/

/-- Both directions are done. -/
structure Done (s : Copier) : Prop where
  outbound : s.outbound.stream.eof = true
  outboundShutdown : s.outboundShutdown = true
  inbound : s.inbound.stream.eof = true
  inboundShutdown : s.inboundShutdown = true

instance (s : Copier) : Decidable (Done s) :=
  decidable_of_iff (s.outbound.stream.eof = true ∧ s.outboundShutdown = true ∧
      s.inbound.stream.eof = true ∧ s.inboundShutdown = true)
    ⟨fun h => ⟨h.1, h.2.1, h.2.2.1, h.2.2.2⟩, fun h => ⟨h.1, h.2, h.3, h.4⟩⟩

section Done

variable {s : Copier}

/-- A stream whose buffer is full is not empty. -/
theorem bufferEmpty_of_full {fd : FileDescriptor} {c : Conduit} (h : Orderly fd c)
    (hfull : ¬ 0 < c.stream.remainingCapacity) : c.stream.bufferEmpty = false := by
  unfold ByteStream.remainingCapacity at hfull
  rw [h.capacity] at hfull
  unfold ByteStream.bufferEmpty
  cases hbuff : c.stream.buff with
  | nil =>
    rw [hbuff] at hfull
    exact absurd (by decide) hfull
  | cons b buff => rfl

/-- **The loop goes on while there is something to copy.** -/
theorem Steady.done_iff (h : Steady s) :
    (∀ rule ∈ rules, rule.Defunct s ∨ rule.interest s = false) ↔ Done s := by
  obtain ⟨h₁, h₂, h₃, h₄⟩ := h.defunct
  have hsound₁ := h.input.sound
  have hsound₂ := h.socket.sound
  -- what the rules ask for
  have i₁ : rule1.interest s = false ↔ ¬ 0 < s.outbound.stream.remainingCapacity := by
    simp [rule1, hsound₁, hsound₂]
  have i₂ : rule2.interest s = false ↔ s.outbound.stream.bufferEmpty = true ∧
      (s.outbound.stream.eof = true → s.outboundShutdown = true) := by
    simp only [rule2, Bool.or_eq_false_iff, Bool.not_eq_false', Bool.and_eq_false_iff]
    refine and_congr_right fun _ => ?_
    cases s.outbound.stream.eof <;> simp
  have i₃ : rule3.interest s = false ↔ ¬ 0 < s.inbound.stream.remainingCapacity := by
    simp [rule3, hsound₁, hsound₂]
  have i₄ : rule4.interest s = false ↔ s.inbound.stream.bufferEmpty = true ∧
      (s.inbound.stream.eof = true → s.inboundShutdown = true) := by
    simp only [rule4, Bool.or_eq_false_iff, Bool.not_eq_false', Bool.and_eq_false_iff]
    refine and_congr_right fun _ => ?_
    cases s.inbound.stream.eof <;> simp
  simp only [rules, List.forall_mem_cons, List.not_mem_nil, false_imp_iff, implies_true, and_true,
    h₁, h₂, h₃, h₄, i₁, i₂, i₃, i₄, false_or]
  constructor
  · rintro ⟨hout, ⟨hempty, hshut⟩, hin, hlast⟩
    -- the outbound buffer is empty, so rule 1 is gone
    have hended : s.outbound.stream.inputEnded = true := by
      refine hout.resolve_right fun hfull => ?_
      rw [bufferEmpty_of_full h.input hfull] at hempty
      cases hempty
    have heof : s.outbound.stream.eof = true := by rw [ByteStream.eof, hended, hempty]; rfl
    suffices hsuff : s.inbound.stream.eof = true ∧ s.inboundShutdown = true from
      ⟨heof, hshut heof, hsuff.1, hsuff.2⟩
    rcases hlast with hclosed | ⟨hempty', hshut'⟩
    · have hdone := h.outputClosed hclosed
      exact ⟨h.inboundDone hdone, hdone⟩
    · have hended' : s.inbound.stream.inputEnded = true := by
        refine hin.resolve_right fun hfull => ?_
        rw [bufferEmpty_of_full h.socket hfull] at hempty'
        cases hempty'
      have heof' : s.inbound.stream.eof = true := by rw [ByteStream.eof, hended', hempty']; rfl
      exact ⟨heof', hshut' heof'⟩
  · rintro ⟨hout, houtShut, hin, hinShut⟩
    have hout' := hout
    have hin' := hin
    rw [ByteStream.eof, Bool.and_eq_true] at hout' hin'
    exact ⟨.inl hout'.1, ⟨hout'.2, fun _ => houtShut⟩, .inl hin'.1, .inr ⟨hin'.2, fun _ => hinShut⟩⟩

/-- Then everything has been copied. -/
theorem Steady.copied (h : Steady s) (hdone : Done s) :
    (s.outbound.delivered = s.outbound.arrived ∧ s.outbound.closed = true) ∧
      s.inbound.delivered = s.inbound.arrived ∧ s.inbound.closed = true :=
  ⟨h.input.delivered_of_eof h.toSafe.outbound hdone.outbound,
    h.socket.delivered_of_eof h.toSafe.inbound hdone.inbound⟩

end Done

/-! ## §4 Runs -/

/-- No rule that is polled for its event is told of a hang-up instead. -/
def Running.Calm (r : Running) : Event → Prop
  | .waitNextEvent poll => EventLoop.Calm r.rules r.copier poll
  | _ => True

instance (r : Running) : DecidablePred r.Calm
  | .waitNextEvent poll => inferInstanceAs (Decidable (EventLoop.Calm r.rules r.copier poll))
  | .typed _ => .isTrue trivial
  | .endOfInput => .isTrue trivial
  | .received _ => .isTrue trivial
  | .endOfStream => .isTrue trivial

/-- What holds of the loop in any case. -/
structure Running.Safe (r : Running) : Prop where
  rules : r.rules.Sublist Copier.rules
  copier : Copier.Safe r.copier

/-- What holds besides while nothing hangs up: the rules that are gone are defunct. -/
structure Running.Steady (r : Running) : Prop extends r.Safe where
  steady : Copier.Steady r.copier
  gone : ∀ rule ∈ Copier.rules, rule ∈ r.rules ∨ rule.Defunct r.copier

section Runs

variable {r r' : Running} {event : Event} {events : List Event}

/-- A pass of the loop. -/
theorem Running.Safe.pass (h : r.Safe) {poll : Poll CopyAnswer}
    (hstep : r.Step (.waitNextEvent poll) r') : r'.Safe ∧ Pumps r.copier r'.copier := by
  obtain ⟨result, hpass⟩ := hstep
  obtain ⟨hsub, hsafe, hpumps⟩ := EventLoop.waitNextEvent_invariant
    (I := fun t => Copier.Safe t ∧ Pumps r.copier t)
    (fun rule hmem s hs => by
      obtain ⟨ht, hst⟩ := hs.1.cancel (h.rules.subset hmem)
      exact ⟨ht, hs.2.trans hst⟩)
    (fun rule hmem a s t hs hrun => by
      obtain ⟨ht, hst⟩ := hs.1.callback (h.rules.subset hmem) hrun
      exact ⟨ht, hs.2.trans hst⟩) hpass ⟨h.copier, .refl _⟩
  exact ⟨⟨hsub.trans h.rules, hsafe⟩, hpumps⟩

theorem Running.Safe.step (h : r.Safe) (hstep : r.Step event r') : r'.Safe := by
  have hs := h.copier
  cases event with
  | waitNextEvent poll => exact (h.pass hstep).1
  | typed data =>
    obtain ⟨-, rfl⟩ := hstep
    exact ⟨h.rules, { hs with outbound := hs.outbound.arrive data }⟩
  | endOfInput =>
    cases hstep
    exact ⟨h.rules, { hs with outbound := hs.outbound.close }⟩
  | received data =>
    obtain ⟨-, rfl⟩ := hstep
    exact ⟨h.rules, { hs with inbound := hs.inbound.arrive data }⟩
  | endOfStream =>
    cases hstep
    exact ⟨h.rules, { hs with inbound := hs.inbound.close }⟩

theorem Running.Steady.step (h : r.Steady) (hcalm : r.Calm event) (hstep : r.Step event r') :
    r'.Steady := by
  have hsafe := h.toSafe.step hstep
  have hs := h.steady
  -- what happens at the sources touches no descriptor
  have hgone : ∀ {t}, Ages r.copier t → ∀ rule ∈ Copier.rules, rule ∈ r.rules ∨ rule.Defunct t :=
    fun hages rule hrule => (h.gone rule hrule).imp_right (defunct_of_ages hages hrule)
  cases event with
  | waitNextEvent poll =>
    obtain ⟨result, hpass⟩ := hstep
    have hmem : ∀ rule ∈ r.rules, rule ∈ Copier.rules := fun rule hrule => h.rules.subset hrule
    obtain ⟨hrules, hsteady, hages⟩ := EventLoop.pass_of_idle
      (I := fun t => Copier.Steady t ∧ Ages r.copier t)
      (fun rule hrule hdefunct => hs.idle (hmem rule hrule) hdefunct) hcalm
      (fun rule hrule a s t hI hrun => by
        obtain ⟨ht, hst⟩ := hI.1.callback (hmem rule hrule) hrun
        exact ⟨ht, hI.2.trans hst⟩) hpass ⟨hs, .refl _⟩
    refine { toSafe := hsafe, steady := hsteady, gone := fun rule hrule => ?_ }
    by_cases hdefunct : rule.Defunct r.copier
    · exact .inr (defunct_of_ages hages hrule hdefunct)
    · refine .inl ?_
      rw [hrules, List.mem_filter]
      exact ⟨(h.gone rule hrule).resolve_right hdefunct, by simpa using hdefunct⟩
  | typed data =>
    obtain ⟨hopen, rfl⟩ := hstep
    exact { toSafe := hsafe, gone := hgone ⟨id, rfl, id, rfl, id⟩, steady := { hs with
      toSafe := hsafe.copier, input := hs.input.arrive hs.toSafe.outbound hopen data } }
  | endOfInput =>
    cases hstep
    exact { toSafe := hsafe, gone := hgone ⟨id, rfl, id, rfl, id⟩, steady := { hs with
      toSafe := hsafe.copier, input := hs.input.close } }
  | received data =>
    obtain ⟨hopen, rfl⟩ := hstep
    exact { toSafe := hsafe, gone := hgone ⟨id, rfl, id, rfl, id⟩, steady := { hs with
      toSafe := hsafe.copier, socket := hs.socket.arrive hs.toSafe.inbound hopen data } }
  | endOfStream =>
    cases hstep
    exact { toSafe := hsafe, gone := hgone ⟨id, rfl, id, rfl, id⟩, steady := { hs with
      toSafe := hsafe.copier, socket := hs.socket.close } }

/-- At the start nothing has been copied. -/
theorem steady_start : Running.Steady {} := by
  have hcarried : Carried {} := ⟨List.prefix_rfl, fun _ => rfl, Nat.le_refl _, rfl⟩
  have horderly : Orderly {} {} := ⟨rfl, rfl, by rintro ⟨⟩, rfl, rfl⟩
  have hsafe : Copier.Safe {} := ⟨hcarried, hcarried, by rintro ⟨⟩, by rintro ⟨⟩⟩
  exact {
    rules := List.Sublist.refl _
    copier := hsafe
    steady := {
      toSafe := hsafe, input := horderly, socket := horderly
      inputOpen := rfl, socketOpen := rfl, outputClosed := by rintro ⟨⟩ }
    gone := fun _ hrule => .inl hrule }

theorem steady_of_trace (h : Trace (Guarded Running.Step Running.Calm) {} events r) : r.Steady :=
  h.invariant (fun _ _ _ hr hstep => hr.step hstep.1 hstep.2) steady_start

/-- When a pass ends the loop. -/
theorem Running.Steady.exit_iff (h : r.Steady) {poll : Poll CopyAnswer}
    (hpoll : poll ≠ .interrupted) :
    (∃ rules' s, EventLoop.waitNextEvent r.rules r.copier poll = .ok (.Exit, rules', s)) ↔
      Done r.copier := by
  rw [EventLoop.exit_iff_of_idle
    (fun rule hrule hdefunct => h.steady.idle (h.rules.subset hrule) hdefunct) hpoll,
    ← h.steady.done_iff]
  -- the rules that are gone are defunct
  constructor
  · intro hall rule hrule
    rcases h.gone rule hrule with hstays | hdefunct
    · exact hall rule hstays
    · exact .inl hdefunct
  · exact fun hall rule hrule => hall rule (h.rules.subset hrule)

/-- **The copy loop returns exactly when it is done.**  What has been delivered is always a prefix
    of what has arrived, in both directions.  In a run in which no rule that is polled for its event
    is told of a hang-up instead, a pass that no signal interrupts ends the loop exactly when both
    directions have been shut down at the end of their streams, and then everything that has
    arrived has been delivered. -/
theorem copy_returns_when_done (h : Trace Running.Step {} events r) :
    (r.copier.outbound.delivered <+: r.copier.outbound.arrived ∧
      r.copier.inbound.delivered <+: r.copier.inbound.arrived) ∧
    (Trace (Guarded Running.Step Running.Calm) {} events r → ∀ poll, poll ≠ .interrupted →
      ((∃ rules' s, EventLoop.waitNextEvent r.rules r.copier poll = .ok (.Exit, rules', s)) ↔
        Done r.copier) ∧
      (Done r.copier →
        r.copier.outbound.delivered = r.copier.outbound.arrived ∧ r.copier.outbound.closed = true ∧
        r.copier.inbound.delivered = r.copier.inbound.arrived ∧
        r.copier.inbound.closed = true)) := by
  have hsafe := h.invariant (I := Running.Safe) (fun _ _ _ hr hstep => hr.step hstep)
    steady_start.toSafe
  refine ⟨⟨hsafe.copier.outbound.delivered_arrived, hsafe.copier.inbound.delivered_arrived⟩,
    fun hcalm poll hpoll => ?_⟩
  have hr := steady_of_trace hcalm
  refine ⟨hr.exit_iff hpoll, fun hdone => ?_⟩
  obtain ⟨⟨hout, houtClosed⟩, hin, hinClosed⟩ := hr.steady.copied hdone
  exact ⟨hout, houtClosed, hin, hinClosed⟩

end Runs

/-- A pass in which some rules are ready and some are told of a hang-up. -/
def readyPass (ready : List ℕ) (hung : List ℕ := []) : Event :=
  .waitNextEvent (.reported (fun i => { event := ready.contains i, hup := hung.contains i })
    fun _ => { amount := 5 })

/-- First the outbound direction, to its end.  Then the socket hangs up: nothing is to be written to
    it any more, and what has arrived is still read. -/
def exchange : List Event :=
  [.typed [1, 2], .endOfInput, readyPass [0], readyPass [0, 1], .received [3], .endOfStream,
    readyPass [1] [0], readyPass [1, 2] [0, 1]]

/-- A session of the copy loop. -/
theorem copy_returns_when_done_exchange : ∃ r : Running,
    Trace (Guarded Running.Step Running.Calm) {} exchange r ∧
      (∃ rules' s, EventLoop.waitNextEvent r.rules r.copier .timeout = .ok (.Exit, rules', s)) ∧
      r.copier.outbound.delivered = [1, 2] ∧ r.copier.inbound.delivered = [3] := by
  have hrun : ((exchange.foldlM (performIf Running.Calm Running.perform) {}).map
      fun r : Running =>
        (decide (Done r.copier), r.copier.outbound.arrived, r.copier.inbound.arrived)) =
      some (true, [1, 2], [3]) := by
    decide +kernel
  obtain ⟨r, hr, hend⟩ := Option.map_eq_some_iff.mp hrun
  simp only [Prod.mk.injEq, decide_eq_true_eq] at hend
  obtain ⟨hdone, harrivedOut, harrivedIn⟩ := hend
  have htrace : Trace (Guarded Running.Step Running.Calm) _ _ r :=
    .of_performIf (fun _ _ _ => Running.step_of_perform) hr
  have hpoll : (.timeout : Poll CopyAnswer) ≠ .interrupted := by simp
  obtain ⟨hiff, hcopied⟩ := (copy_returns_when_done htrace.of_guarded).2 htrace .timeout hpoll
  obtain ⟨hout, -, hin, -⟩ := hcopied hdone
  exact ⟨r, htrace, hiff.mpr hdone, hout.trans harrivedOut, hin.trans harrivedIn⟩

end Copier

end Sponge
