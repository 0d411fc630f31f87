import Sponge.Sender.Invariant

/-!
# Time-outs and Back-off

The timer of a sender, its current time-out and the number of retransmissions in a row are three
pieces of state that four operations touch.  Two invariants say how they belong together:

- `Clock elapsed s`: the timer runs exactly while something is in flight, and `elapsed` of the
  current time-out have passed
- `Paced timeout s`: the current time-out is the initial one, doubled once for every
  retransmission that was counted

and one lemma for each operation says what happens to them.
-/

namespace Sponge

namespace TCPSender

open TCPSegment (seqLength)

/-! ## §1 A tick -/

/-- The timer runs out with this tick while something is in flight. -/
def Due (s : TCPSender) (ms : UInt64) : Prop :=
  s.outstandingSeg ≠ [] ∧ (s.timer.tick ms).isExpired = true

instance (s : TCPSender) (ms : UInt64) : Decidable (s.Due ms) :=
  inferInstanceAs (Decidable (_ ∧ _))

/-- The number of retransmissions in a row after one more.  While the peer advertises no window
    they are not counted. -/
def countedOnce (s : TCPSender) : UInt32 :=
  if (0 : UInt16) < s.lastWin then s.retransmissionCount + 1 else s.retransmissionCount

/-- The time-out after one more retransmission. -/
def backedOff (s : TCPSender) : UInt32 :=
  if (0 : UInt16) < s.lastWin then s.rto * 2 else s.rto

/-- **A time-out** retransmits the front of the queue and starts the timer again. -/
theorem tick_of_due {s : TCPSender} {ms : UInt64} (h : s.Due ms) :
    ∃ front rest, s.outstandingSeg = front :: rest ∧
      s.tick ms = { s with
        segmentsOut := s.segmentsOut ++ [front]
        retransmissionCount := s.countedOnce
        rto := s.backedOff
        timer := s.timer.start s.backedOff } := by
  obtain ⟨hne, hexpired⟩ := h
  obtain ⟨front, rest, hcons⟩ := List.exists_cons_of_ne_nil hne
  refine ⟨front, rest, hcons, ?_⟩
  unfold tick countedOnce backedOff
  rw [hcons]
  dsimp only
  rw [if_pos hexpired]
  split <;> rfl

/-- Otherwise time just passes. -/
theorem tick_of_not_due {s : TCPSender} {ms : UInt64} (h : ¬ s.Due ms) :
    s.tick ms = { s with
      timer := if s.outstandingSeg = [] then s.timer.stop else s.timer.tick ms } := by
  unfold tick
  split
  · rename_i hnil
    rw [if_pos hnil]
    rfl
  · rename_i front rest hcons
    have hrunning : ¬ (s.timer.tick ms).isExpired = true := fun hexpired =>
      h ⟨by simp [hcons], hexpired⟩
    rw [if_neg hrunning, if_neg (by simp [hcons])]

/-- From an empty queue, a tick leaves a segment on it exactly at a time-out. -/
theorem tick_segmentsOut_ne_nil_iff {s : TCPSender} {ms : UInt64} (h : s.segmentsOut = []) :
    (s.tick ms).segmentsOut ≠ [] ↔ s.Due ms := by
  by_cases hdue : s.Due ms
  · obtain ⟨front, rest, -, htick⟩ := tick_of_due hdue
    simp [htick, hdue]
  · simp [tick_of_not_due hdue, hdue, h]

/-! ## §2 The clock -/

/-- What `ack_received` does: nothing, or first transmissions after the acknowledgement has been
    taken over. -/
theorem Tracked.ackReceived_cases {s : TCPSender} (h : Tracked s) (ackno : WrappingInt32)
    (win : UInt16) :
    s.ackReceived ackno win = s ∨ ∃ t new, s.acceptAck ackno win = some t ∧ Tracked t ∧
      Sends t new (s.ackReceived ackno win) := by
  unfold TCPSender.ackReceived
  split
  · exact .inl rfl
  · rename_i t hacc
    have ht := h.acceptAck hacc
    obtain ⟨new, hsends⟩ := ht.fillWindow_sends
    exact .inr ⟨t, new, hacc, ht, hsends⟩

/-- `elapsed` milliseconds have passed since the timer was started with the current time-out;
    it is stopped while nothing is in flight. -/
structure Clock (elapsed : ℕ) (s : TCPSender) : Prop where
  stopped : s.outstandingSeg = [] → s.timer = {}
  running : s.outstandingSeg ≠ [] → s.timer.started = true ∧ s.timer.expired = false ∧
    s.timer.remainingTime.toNat + elapsed = s.rto.toNat

/-- From `s` to `t` new data is acknowledged, or something is sent while the timer is stopped. -/
def Resets (s t : TCPSender) : Prop :=
  s.lastAckno < t.lastAckno ∨ (s.timer.isStart = false ∧ s.nextSeqno < t.nextSeqno)

instance (s t : TCPSender) : Decidable (Resets s t) :=
  inferInstanceAs (Decidable (_ ∨ _))

/-- What new segments do to the next sequence number. -/
theorem Sends.nextSeqno_lt_iff {s t : TCPSender} {new : List TCPSegment} (h : Sends s new t)
    (hseg : Segmented t) : s.nextSeqno < t.nextSeqno ↔ new ≠ [] := by
  rw [h.nextSeqno]
  cases new with
  | nil => simp
  | cons first rest =>
    have hpos : 0 < first.lengthInSequenceSpace := hseg.length_pos first (by rw [h.sent]; simp)
    rw [TCPSegment.seqLength_cons]
    simp
    omega

section Clock

variable {elapsed : ℕ} {s t : TCPSender}

theorem Clock.congr (h : Clock elapsed s) (htimer : t.timer = s.timer)
    (hqueue : t.outstandingSeg = s.outstandingSeg) (hrto : t.rto = s.rto) : Clock elapsed t := by
  refine ⟨?_, ?_⟩
  · rw [htimer, hqueue]
    exact h.stopped
  · rw [htimer, hqueue, hrto]
    exact h.running

/-- A timer that has just been started. -/
theorem Clock.started (timer : RetransmissionTimer) (htimer : t.timer = timer.start t.rto)
    (hqueue : t.outstandingSeg ≠ []) : Clock 0 t := by
  refine ⟨fun hnil => absurd hnil hqueue, fun _ => ?_⟩
  rw [htimer]
  exact ⟨rfl, rfl, rfl⟩

/-- **When a time-out happens.** -/
theorem Clock.due_iff (h : Clock elapsed s) (ms : UInt64) :
    s.Due ms ↔ s.outstandingSeg ≠ [] ∧ s.rto.toNat ≤ elapsed + ms.toNat := by
  unfold Due
  refine and_congr_right fun hqueue => ?_
  obtain ⟨hstarted, hexpired, hleft⟩ := h.running hqueue
  unfold RetransmissionTimer.tick RetransmissionTimer.isStart RetransmissionTimer.isExpired
  rw [hstarted]
  simp only [Bool.not_true, Bool.false_eq_true, if_false]
  split
  · simp only [Bool.and_self, true_iff]
    omega
  · simp only [hexpired, Bool.false_and, Bool.false_eq_true, false_iff]
    omega

/-- Time that does not bring the time-out is taken off what remains. -/
theorem Clock.tick_of_not_due (h : Clock elapsed s) {ms : UInt64} (hdue : ¬ s.Due ms) :
    Clock (elapsed + ms.toNat) (s.tick ms) := by
  have hlong := mt (h.due_iff ms).mpr hdue
  rw [TCPSender.tick_of_not_due hdue]
  refine ⟨fun hnil => ?_, fun hqueue => ?_⟩
  · dsimp only at hnil ⊢
    rw [if_pos hnil]
    rfl
  · dsimp only at hqueue ⊢
    obtain ⟨hstarted, hexpired, hleft⟩ := h.running hqueue
    have hshort : ¬ s.timer.remainingTime.toNat ≤ ms.toNat := fun hle =>
      hlong ⟨hqueue, by omega⟩
    -- the tick is shorter than a 32-bit number, so nothing is cut off
    have hms : ms.toUInt32.toNat = ms.toNat := by
      have := s.timer.remainingTime.toNat_lt
      rw [UInt64.toNat_toUInt32, Nat.mod_eq_of_lt (by omega)]
    have hsub : (s.timer.remainingTime - ms.toUInt32).toNat =
        s.timer.remainingTime.toNat - ms.toNat := by
      rw [UInt32.toNat_sub_of_le _ _ (UInt32.le_iff_toNat_le.mpr (by omega)), hms]
    rw [if_neg hqueue]
    unfold RetransmissionTimer.tick RetransmissionTimer.isStart
    simp only [hstarted, Bool.not_true, Bool.false_eq_true, if_false, if_neg hshort]
    exact ⟨trivial, hexpired, by rw [hsub]; omega⟩

theorem Clock.tick_of_due {ms : UInt64} (hdue : s.Due ms) : Clock 0 (s.tick ms) := by
  obtain ⟨front, rest, hcons, htick⟩ := TCPSender.tick_of_due hdue
  rw [htick]
  exact .started s.timer rfl hdue.1

/-- A send starts a timer that was stopped and leaves a running one alone. -/
theorem Clock.sends (h : Clock elapsed s) (htracked : Tracked s) {new : List TCPSegment}
    (hsends : Sends s new t) (hseg : Segmented t) :
    Clock (if Resets s t then 0 else elapsed) t := by
  have hresets : Resets s t ↔ s.timer.isStart = false ∧ new ≠ [] := by
    rw [Resets, hsends.lastAckno, hsends.nextSeqno_lt_iff hseg]
    simp
  split
  · rename_i hstart
    rw [hresets] at hstart
    refine .started s.timer ?_ ?_
    · rw [hsends.timer, if_neg (by simp [hstart.1, hstart.2]), hsends.rto]
    · rw [hsends.outstandingSeg]
      simp [hstart.2]
  · rename_i hkeep
    rw [hresets] at hkeep
    have htimer : t.timer = s.timer := by
      rw [hsends.timer, if_pos]
      by_contra hcon
      push Not at hcon
      exact hkeep ⟨by simpa using hcon.1, hcon.2⟩
    by_cases hnew : new = []
    · exact h.congr htimer (by rw [hsends.outstandingSeg, hnew, List.append_nil]) hsends.rto
    · -- the timer was running, so something was in flight before
      have hqueue : s.outstandingSeg ≠ [] := htracked.timer.mp (by
        by_contra hcon
        exact hkeep ⟨by simpa using hcon, hnew⟩)
      refine ⟨fun hnil => ?_, fun _ => ?_⟩
      · rw [hsends.outstandingSeg] at hnil
        exact absurd (List.append_eq_nil_iff.mp hnil).1 hqueue
      · rw [htimer, hsends.rto]
        exact h.running hqueue

theorem Clock.fillWindow (h : Clock elapsed s) (htracked : Tracked s) :
    Clock (if Resets s s.fillWindow then 0 else elapsed) s.fillWindow := by
  obtain ⟨new, hsends⟩ := htracked.fillWindow_sends
  exact h.sends htracked hsends htracked.fillWindow.segmented

/-- An acknowledgement of new data restarts the timer, or stops it. -/
theorem Clock.acceptAck {ackno : WrappingInt32} {win : UInt16}
    (hacc : s.acceptAck ackno win = some t) (hnew : s.lastAckno < t.lastAckno) : Clock 0 t := by
  rcases acceptAck_cases hacc with ⟨-, -, rfl⟩ | ⟨-, rfl⟩
  · refine ⟨fun hnil => ?_, fun hqueue => ?_⟩
    · dsimp only at hnil ⊢
      simp [hnil, RetransmissionTimer.stop]
    · dsimp only at hqueue ⊢
      simp [hqueue, RetransmissionTimer.start]
  · exact absurd hnew (Nat.lt_irrefl _)

theorem Clock.ackReceived (h : Clock elapsed s) (htracked : Tracked s) (ackno : WrappingInt32)
    (win : UInt16) : Clock (if Resets s (s.ackReceived ackno win) then 0 else elapsed)
      (s.ackReceived ackno win) := by
  rcases htracked.ackReceived_cases ackno win with heq | ⟨t, new, hacc, ht, hsends⟩
  · rw [heq, if_neg (by simp [Resets])]
    exact h
  · have hseg : Segmented (s.ackReceived ackno win) := htracked.ackReceived.segmented
    by_cases hnew : s.lastAckno < t.lastAckno
    · have hclock := (Clock.acceptAck hacc hnew).sends ht hsends hseg
      rw [ite_self] at hclock
      rw [if_pos (.inl (by rwa [hsends.lastAckno]))]
      exact hclock
    · -- only the window has been taken over
      rcases acceptAck_cases hacc with ⟨hlt, -, rfl⟩ | ⟨-, rfl⟩
      · exact absurd hlt hnew
      · exact (h.congr (t := { s with lastWin := win }) rfl rfl rfl).sends ht hsends hseg

end Clock

/-! ## §3 The back-off -/

/-- The current time-out is the initial one, doubled for every retransmission counted. -/
structure Paced (timeout : UInt16) (s : TCPSender) : Prop where
  initial : s.initialRetransmissionTimeout = timeout.toUInt32
  rto : s.rto.toNat = timeout.toNat * 2 ^ s.retransmissionCount.toNat

section Paced

variable {timeout : UInt16} {s t : TCPSender}

theorem Paced.congr (h : Paced timeout s)
    (hinitial : t.initialRetransmissionTimeout = s.initialRetransmissionTimeout)
    (hrto : t.rto = s.rto) (hcount : t.retransmissionCount = s.retransmissionCount) :
    Paced timeout t :=
  ⟨hinitial.trans h.initial, by rw [hrto, hcount]; exact h.rto⟩

theorem Paced.sends (h : Paced timeout s) {new : List TCPSegment} (hsends : Sends s new t) :
    Paced timeout t :=
  h.congr hsends.initialRto hsends.rto hsends.retransmissionCount

theorem Paced.fillWindow (h : Paced timeout s) (htracked : Tracked s) :
    Paced timeout s.fillWindow := by
  obtain ⟨new, hsends⟩ := htracked.fillWindow_sends
  exact h.sends hsends

theorem Paced.ackReceived (h : Paced timeout s) (htracked : Tracked s) (ackno : WrappingInt32)
    (win : UInt16) : Paced timeout (s.ackReceived ackno win) := by
  unfold TCPSender.ackReceived
  split
  · exact h
  · rename_i t hacc
    refine Paced.fillWindow ?_ (htracked.acceptAck hacc)
    rcases acceptAck_cases hacc with ⟨-, -, rfl⟩ | ⟨-, rfl⟩
    · refine ⟨h.initial, ?_⟩
      simp [h.initial]
    · exact ⟨h.initial, h.rto⟩

/-- One more retransmission in a row, as long as they are few. -/
theorem countedOnce_toNat (hcount : s.retransmissionCount ≤ TCPConfig.maxRetxAttempts) :
    s.countedOnce.toNat =
      s.retransmissionCount.toNat + if s.lastWin = 0 then 0 else 1 := by
  have hle : s.retransmissionCount.toNat ≤ 8 := hcount
  unfold countedOnce
  by_cases hwin : s.lastWin = 0
  · simp [hwin]
  · rw [if_pos (UInt16.pos_iff_ne_zero.mpr hwin), if_neg hwin, UInt32.toNat_add]
    exact Nat.mod_eq_of_lt (by simp; omega)

/-- Up to the limit, the 32-bit time-out does not overflow. -/
theorem Paced.tick (h : Paced timeout s)
    (hcount : s.retransmissionCount ≤ TCPConfig.maxRetxAttempts) (ms : UInt64) :
    Paced timeout (s.tick ms) := by
  by_cases hdue : s.Due ms
  · obtain ⟨front, rest, -, htick⟩ := tick_of_due hdue
    rw [htick]
    refine ⟨h.initial, ?_⟩
    dsimp only
    rw [countedOnce_toNat hcount]
    unfold backedOff
    by_cases hwin : s.lastWin = 0
    · simpa [hwin] using h.rto
    · rw [if_pos (UInt16.pos_iff_ne_zero.mpr hwin), if_neg hwin, UInt32.toNat_mul, h.rto,
        Nat.pow_succ _ s.retransmissionCount.toNat, ← Nat.mul_assoc]
      apply Nat.mod_eq_of_lt
      have htimeout := timeout.toNat_lt
      have hpow : 2 ^ s.retransmissionCount.toNat ≤ 2 ^ 8 := Nat.pow_le_pow_right (by omega) hcount
      calc timeout.toNat * 2 ^ s.retransmissionCount.toNat * 2
          ≤ timeout.toNat * 2 ^ 8 * 2 := by gcongr
        _ < 2 ^ 32 := by omega
  · rw [tick_of_not_due hdue]
    exact ⟨h.initial, h.rto⟩

end Paced

end TCPSender

end Sponge
