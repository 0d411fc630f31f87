import Sponge.Sender.Invariant

/-!
# Flow Control

A segment may only be transmitted if it ends inside the window that the receiver has
advertised.  `fill_window` computes the room left in the window as an unsigned difference.
When the window shrinks below what is already in flight, the difference wraps round and the
sender transmits as if the window were unbounded.

- `RespectsWindow s t`: the segments first transmitted between `s` and `t` end in the window
- `WindowOpen s`: in `s` the window covers what is in flight, or there is nothing to send
- `respects_window_iff`: a run respects the window if and only if every `fill_window` in it is
  called in a state with an open window
- `outdated_ack_harmless_iff`: when an acknowledgement of less than what is acknowledged already
  changes nothing.  Its window, which belongs to an older left edge, is taken over all the same
-/

namespace Sponge

namespace TCPSender

open TCPSegment (seqLength seqLength_nil seqLength_cons seqLength_append)

/-! ## §1 The property and the condition -/

/-- Every segment other than a SYN first transmitted between `s` and `t` ends at or below
    `_last_ackno + max(_last_win, 1)`. -/
def RespectsWindow (s t : TCPSender) : Prop :=
  ∀ pre seg post, t.sent = s.sent ++ (pre ++ seg :: post) → seg.header.syn = false →
    seqLength (s.sent ++ pre ++ [seg]) ≤ t.lastAckno + max t.lastWin.toNat 1

/-- What is in flight lies inside the window, unless the SYN is not acknowledged or nothing can
    be sent anyway. -/
def WindowOpen (s : TCPSender) : Prop :=
  -- no SYN yet, nothing to send, or no more in flight than the window allows
  s.lastAckno = 0 ∨ Filled s ∨ s.nextSeqno ≤ s.lastAckno + max s.lastWin.toNat 1

/-- The window is open whenever `op` reaches a call of `fill_window`. -/
def FillsOpen (s : TCPSender) : Op → Prop
  | .fillWindow => WindowOpen s
  | .ackReceived ackno win => ∀ t, s.acceptAck ackno win = some t → WindowOpen t
  | _ => True

/-! ## §2 One call of `fill_window` -/

/-- A step that transmits nothing respects every window. -/
private theorem respectsWindow_of_sent_eq {s t : TCPSender} (h : t.sent = s.sent) :
    RespectsWindow s t := by
  intro pre seg post hsent _
  have hlen := congrArg List.length (h.symm.trans hsent)
  simp at hlen

/-- Before the SYN is acknowledged, at most the SYN is sent. -/
theorem respectsWindow_fillWindow_of_unacked {s : TCPSender} (hzero : s.lastAckno = 0) :
    RespectsWindow s s.fillWindow := by
  rcases Nat.eq_zero_or_pos s.nextSeqno with hclosed | hpos
  · intro pre seg post hsent hsyn
    rw [fillWindow_of_closed hclosed] at hsent
    have hone := List.append_cancel_left hsent
    cases pre with
    | nil =>
      rw [List.nil_append] at hone
      rw [← (List.cons.inj hone).1] at hsyn
      cases hsyn
    | cons x xs =>
      have hlen := congrArg List.length hone
      simp at hlen
  · apply respectsWindow_of_sent_eq
    rw [fillWindow_of_unacked hpos hzero]

section Acked

variable {s : TCPSender} (h : Tracked s) (hack : 0 < s.lastAckno)

include h hack

/-- If something is sent and ends in the window, it also starts there. -/
theorem windowOpen_of_respectsWindow (hresp : RespectsWindow s s.fillWindow) :
    WindowOpen s := by
  have hpost := fillWindow_of_acked h.segmented hack h.ack_le
  have hnext := h.segmented.nextSeqno_eq
  obtain ⟨new, hsends, hnone⟩ := hpost.sends
  right
  cases hnew : new with
  | nil => exact .inl ((fillWindow_eq_self_iff h.segmented hack h.ack_le).mp (hnone hnew))
  | cons seg rest =>
    right
    have hsent := hsends.sent
    rw [hnew] at hsent
    -- the SYN has been sent before
    have hplain : Plain seg := by
      apply hpost.segmented.plain
      have hne : s.sent ≠ [] := by
        intro hnil
        have := h.ack_le
        rw [hnil, seqLength_nil] at hnext
        omega
      rw [hsent, List.tail_append_of_ne_nil hne]
      simp
    -- the first segment that was sent starts at the next number
    have hend := hresp [] seg rest hsent (by rw [hplain])
    rw [List.append_nil, seqLength_append, ← hnext, hsends.lastAckno, hsends.lastWin] at hend
    omega

/-- From an open window, what is in flight stays inside. -/
theorem respectsWindow_of_windowOpen (hopen : WindowOpen s) :
    RespectsWindow s s.fillWindow := by
  have hpost := fillWindow_of_acked h.segmented hack h.ack_le
  have hnext := h.segmented.nextSeqno_eq
  obtain ⟨new, hsends, -⟩ := hpost.sends
  rcases hopen with hzero | hfilled | hle
  · omega
  · -- nothing is sent when there is nothing to send
    apply respectsWindow_of_sent_eq
    rw [(fillWindow_eq_self_iff h.segmented hack h.ack_le).mpr hfilled]
  · intro pre seg post hsent hsyn
    have hnew : new = pre ++ seg :: post := by
      rw [hsends.sent] at hsent
      exact List.append_cancel_left hsent
    have hcurWin := s.curWin_eq_max
    have hwin : s.fillWindow.curWin = s.curWin := by rw [curWin, hsends.lastWin, curWin]
    have hflight : s.bytesInFlight ≤ s.curWin.toNat := by
      unfold bytesInFlight
      omega
    have hafter := hpost.window hflight
    have hadv := hsends.nextSeqno
    unfold bytesInFlight at hafter
    rw [hwin, hsends.lastAckno, hcurWin] at hafter
    rw [hnew, seqLength_append, seqLength_cons] at hadv
    rw [hsends.lastAckno, hsends.lastWin, seqLength_append, seqLength_append, ← hnext,
      seqLength_cons, seqLength_nil]
    omega

end Acked

/-- **One call.**  A call of `fill_window` respects the window if and only if the window was
    open. -/
theorem respectsWindow_fillWindow_iff {s : TCPSender} (h : Tracked s) :
    RespectsWindow s s.fillWindow ↔ WindowOpen s := by
  rcases Nat.eq_zero_or_pos s.lastAckno with hzero | hack
  · exact iff_of_true (respectsWindow_fillWindow_of_unacked hzero) (.inl hzero)
  · exact ⟨windowOpen_of_respectsWindow h hack, respectsWindow_of_windowOpen h hack⟩

/-! ## §3 Runs -/

/-- One operation. -/
theorem respectsWindow_apply_iff {s : TCPSender} (h : Tracked s) (op : Op) :
    RespectsWindow s (s.apply op) ↔ FillsOpen s op := by
  cases op with
  | fillWindow => exact respectsWindow_fillWindow_iff h
  | ackReceived ackno win =>
    simp only [TCPSender.apply, TCPSender.ackReceived, FillsOpen]
    cases hacc : s.acceptAck ackno win with
    | none => exact iff_of_true (respectsWindow_of_sent_eq rfl) (by simp)
    | some t =>
      -- accepting the acknowledgement transmits nothing
      obtain ⟨-, hsent, -⟩ := acceptAck_frame hacc
      have hiff := respectsWindow_fillWindow_iff (h.acceptAck hacc)
      simp only [RespectsWindow, hsent] at hiff ⊢
      simpa using hiff
  | tick ms =>
    refine iff_of_true (respectsWindow_of_sent_eq ?_) trivial
    rw [TCPSender.apply, (s.tick_spec ms).1]
  | write data => exact iff_of_true (respectsWindow_of_sent_eq rfl) trivial
  | endInput => exact iff_of_true (respectsWindow_of_sent_eq rfl) trivial
  | sendEmptySegment => exact iff_of_true (respectsWindow_of_sent_eq rfl) trivial
  | dequeue => exact iff_of_true (respectsWindow_of_sent_eq rfl) trivial
  | setError => exact iff_of_true (respectsWindow_of_sent_eq rfl) trivial

/-- **The runs that respect the window.** -/
theorem respects_window_iff (capacity : UInt64) (retxTimeout : UInt16)
    (fixedIsn : Option WrappingInt32) (randomDevice : UInt32) (ops : List Op) :
    Execution.Along Step (fun s op => RespectsWindow s (s.apply op))
        (.new capacity retxTimeout fixedIsn randomDevice) ops ↔
      Execution.Along Step FillsOpen (.new capacity retxTimeout fixedIsn randomDevice) ops := by
  apply Execution.along_congr (K := Tracked)
  · rintro s op t hs rfl
    exact hs.apply op
  · exact fun s op hs => respectsWindow_apply_iff hs op
  · exact Tracked.new capacity retxTimeout fixedIsn randomDevice

/-- Ten bytes are in flight when the window shrinks to five, and ten more are sent. -/
theorem respects_window_fails : ¬ Execution.Along Step (fun s op => RespectsWindow s (s.apply op))
    (.new 100 1000 (some ⟨0⟩) 0)
    [.fillWindow, .ackReceived ⟨1⟩ 10, .write (List.replicate 20 7), .fillWindow,
      .ackReceived ⟨1⟩ 5] := by
  intro h
  let s := (TCPSender.new 100 1000 (some ⟨0⟩) 0).run
    [.fillWindow, .ackReceived ⟨1⟩ 10, .write (List.replicate 20 7), .fillWindow]
  have hlast : RespectsWindow s (s.apply (.ackReceived ⟨1⟩ 5)) :=
    ((((h.2 _ rfl).2 _ rfl).2 _ rfl).2 _ rfl).1
  have hend := hlast [] { header := { seqno := ⟨11⟩ }, payload := List.replicate 10 7 } []
    (by decide) (by decide)
  revert hend
  decide

/-! ## §4 Outdated acknowledgements -/

/-- The two senders agree, but for histories. -/
structure SameState (s t : TCPSender) : Prop where
  stream : t.stream = s.stream
  nextSeqno : t.nextSeqno = s.nextSeqno
  lastAckno : t.lastAckno = s.lastAckno
  lastWin : t.lastWin = s.lastWin
  rto : t.rto = s.rto
  retransmissionCount : t.retransmissionCount = s.retransmissionCount
  timer : t.timer = s.timer
  outstandingSeg : t.outstandingSeg = s.outstandingSeg
  segmentsOut : t.segmentsOut = s.segmentsOut

/-- An outdated acknowledgement is accepted, with its window. -/
theorem ackReceived_outdated {s : TCPSender} (h : Tracked s) {ackno : WrappingInt32}
    (hold : unwrap ackno s.isn s.lastAckno < s.lastAckno) (win : UInt16) :
    s.ackReceived ackno win = fillWindow { s with lastWin := win } := by
  have hle := h.ack_le
  have hacc : s.acceptAck ackno win = some { s with lastWin := win } := by
    unfold acceptAck
    dsimp only
    rw [if_neg (by omega), if_neg (by omega)]
  rw [TCPSender.ackReceived, hacc]

/-- **When outdated acknowledgements are harmless.**  In every state that a sender gets into, an
    acknowledgement of less than `_last_ackno` leaves the state alone if and only if its window is
    the one in force and `fill_window` has nothing to send. -/
theorem outdated_ack_harmless_iff {capacity : UInt64} {retxTimeout : UInt16}
    {fixedIsn : Option WrappingInt32} {randomDevice : UInt32} {ops : List Op} {s : TCPSender}
    (h : Execution.Trace Step (.new capacity retxTimeout fixedIsn randomDevice) ops s)
    {ackno : WrappingInt32} (hold : unwrap ackno s.isn s.lastAckno < s.lastAckno)
    (win : UInt16) :
    SameState s (s.ackReceived ackno win) ↔ win = s.lastWin ∧ Filled s := by
  have hs : Tracked s := by
    refine h.invariant (I := Tracked) ?_ (.new capacity retxTimeout fixedIsn randomDevice)
    rintro s op t hs rfl
    exact hs.apply op
  have hpos : 0 < s.lastAckno := by omega
  rw [ackReceived_outdated hs hold]
  constructor
  · intro hsame
    have ht : Segmented { s with lastWin := win } := hs.segmented.congr rfl rfl rfl rfl
    obtain ⟨new, hsends, hself⟩ := (fillWindow_of_acked ht hpos hs.ack_le).sends
    -- the window is taken over, and whatever `fill_window` sends is queued
    have hwin : win = s.lastWin := hsends.lastWin.symm.trans hsame.lastWin
    have hnew : new = [] := by
      have hqueue := hsends.segmentsOut.symm.trans hsame.segmentsOut
      exact List.append_right_eq_self.mp hqueue
    subst hwin
    exact ⟨rfl, (fillWindow_eq_self_iff hs.segmented hpos hs.ack_le).mp (hself hnew)⟩
  · rintro ⟨rfl, hfilled⟩
    have hself := (fillWindow_eq_self_iff hs.segmented hpos hs.ack_le).mpr hfilled
    show SameState s s.fillWindow
    rw [hself]
    exact ⟨rfl, rfl, rfl, rfl, rfl, rfl, rfl, rfl, rfl⟩

/-- Everything is acknowledged and nothing is left to send when an old acknowledgement with the
    window in force arrives. -/
theorem outdated_ack_harmless_iff_idle :
    let s := (TCPSender.new 100 1000 (some ⟨0⟩) 0).run
      [.fillWindow, .ackReceived ⟨1⟩ 10, .write [1, 2], .fillWindow, .ackReceived ⟨3⟩ 10]
    unwrap ⟨1⟩ s.isn s.lastAckno < s.lastAckno ∧ SameState s (s.ackReceived ⟨1⟩ 10) := by
  intro s
  have h : Execution.Trace Step (.new 100 1000 (some ⟨0⟩) 0)
      [.fillWindow, .ackReceived ⟨1⟩ 10, .write [1, 2], .fillWindow, .ackReceived ⟨3⟩ 10] s :=
    .cons rfl (.cons rfl (.cons rfl (.cons rfl (.cons rfl (.nil _)))))
  have hold : unwrap ⟨1⟩ s.isn s.lastAckno < s.lastAckno := by decide
  refine ⟨hold, (outdated_ack_harmless_iff h hold 10).mpr ⟨by decide, .inr ⟨by decide, ?_⟩⟩⟩
  intro hended
  exact absurd hended (by decide)

/-- Four bytes are acknowledged with a window of zero.  The first acknowledgement arrives once
    more, its window of four is taken for a new one, and three bytes go out that the receiver
    has no room for. -/
theorem outdated_ack_harmless_fails :
    let s := (TCPSender.new 100 1000 (some ⟨0⟩) 0).run
      [.fillWindow, .ackReceived ⟨1⟩ 4, .write (List.replicate 8 7), .fillWindow,
        .ackReceived ⟨5⟩ 0]
    unwrap ⟨1⟩ s.isn s.lastAckno < s.lastAckno ∧ s.nextSeqno = 6 ∧
      (s.ackReceived ⟨1⟩ 4).nextSeqno = 9 ∧ ¬ SameState s (s.ackReceived ⟨1⟩ 4) := by
  refine ⟨by decide, by decide, by decide, fun hsame => ?_⟩
  exact absurd hsame.lastWin (by decide)

end TCPSender

end Sponge
