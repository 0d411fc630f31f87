import Sponge.Connection.Answering
import Sponge.Connection.Closing
import Sponge.Connection.Progress
import Sponge.Receiver.Progress

/-!
# What One Side Can Do about Lost Segments

As long as the sequence numbers do not wrap round, the front of the retransmission queue is the
segment that the peer waits for.  A connection that has a retransmission left can send it again,
its peer answers with an acknowledgement that is up to date, and the connection takes it over.
A connection whose two directions are done can wait until it is closed.

- `Exact.run`: the queue is exact throughout a run whose raw numbers do not wrap
- `Retransmits`, `retransmits`: the tick that sends the missing segment again
- `answers`: every segment with content is answered
- `lastAckno_of_acknowledged`: the acknowledgement is taken over
- `closes_of_done`: the tick that closes the connection
- `Recoverable cfg c`, `Recoverable.step`: what all this needs, and every operation keeps
- `Step.errors`: the operations that set no error flag
-/

namespace Sponge

open TCPSegment (seqLength seqLength_cons)

/-! ## §1 The retransmission queue -/

namespace TCPSender

variable {s : TCPSender}

/-- The raw numbers of all that has been sent are below `2 ^ 32`. -/
def Unwrapped (s : TCPSender) : Prop :=
  s.isn.rawValue.toNat + s.nextSeqno < 2 ^ 32

/-- Numbers that do not wrap compare like the raw ones. -/
theorem Tracked.noCross (h : Tracked s) (hraw : Unwrapped s) (op : Op) : NoCross s op := by
  cases op with
  | ackReceived ackno win =>
    intro hnew hle front hfront _
    obtain ⟨rest, hcons⟩ := List.head?_eq_some_iff.mp hfront
    have hnum := h.outstanding_numbered
    rw [hcons] at hnum
    obtain ⟨-, -, -, hstart⟩ := h.queueStart_spec
    unfold Unwrapped at hraw
    rw [UInt32.le_iff_toNat_le, hnum.1, ← wrap_unwrap ackno s.isn s.lastAckno, wrap_toNat,
      wrap_toNat, Nat.mod_eq_of_lt (by omega), Nat.mod_eq_of_lt (by omega)]
    omega
  | _ => trivial

/-- **Without a wrap-around the queue stays exact.** -/
theorem Exact.run {ops : List Op} : ∀ {s : TCPSender}, Tracked s → Exact s →
    Unwrapped (s.run ops) → Exact (s.run ops) := by
  induction ops with
  | nil => exact fun _ h _ => h
  | cons op ops ih =>
    intro s ht h hraw
    have hadv := (ht.run (op :: ops)).2
    have hbefore : Unwrapped s := by
      have hisn := hadv.isn
      have hnext := hadv.nextSeqno
      unfold Unwrapped at hraw ⊢
      rw [hisn] at hraw
      omega
    exact ih (ht.apply op) ((exact_apply_iff ht h op).mpr (ht.noCross hbefore op)) hraw

/-- The time-out comes when what is left on the timer has passed. -/
theorem Tracked.due (h : Tracked s) (hne : s.outstandingSeg ≠ []) :
    s.Due s.timer.remainingTime.toUInt64 := by
  refine ⟨hne, ?_⟩
  have hstart := h.timer.mpr hne
  have hstarted : s.timer.started = true := hstart
  unfold RetransmissionTimer.tick
  rw [if_neg (by simp [hstart]), if_pos (by simp)]
  simp [RetransmissionTimer.isExpired, hstarted]

end TCPSender

namespace TCPConnection

open TCPSender (Tracked Exact)

/-- The queue over the sender's part of an operation. -/
theorem Moves.exact {op : Op} {s t : TCPSender} (h : Moves op s t) (hs : Tracked s)
    (hexact : Exact s) (hraw : t.Unwrapped) : Exact t := by
  obtain ⟨ops, rfl, -, -⟩ := h
  exact hexact.run hs hraw

/-! ## §2 Sending the missing segment again -/

/-- From `c` to `d` nothing happens but that `seg` is sent again, which starts at `b` and contains
    the number that the peer has asked for. -/
structure Retransmits (c d : TCPConnection) (b : ℕ) (seg : TCPSegment) : Prop where
  active : d.isactive = true
  receiver : d.receiver = c.receiver
  lastAckno : d.sender.lastAckno = c.sender.lastAckno
  emits : appended c d = [seg]
  rst : seg.header.rst = false
  seqno : seg.header.seqno = wrap b c.sender.isn
  low : b ≤ c.sender.lastAckno
  high : c.sender.lastAckno < b + seg.lengthInSequenceSpace
  syn : b = 0 → seg.lengthInSequenceSpace ≤ 1
  -- the acknowledgement is the current one
  ack : ∀ a, c.receiver.ackno = some a → seg.header.ack = true ∧ seg.header.ackno = a

theorem rst_fillHeader (r : TCPReceiver) (seg : TCPSegment) :
    (fillHeader r seg).header.rst = seg.header.rst := by
  unfold fillHeader
  split <;> rfl

section Recovery

variable {cfg : TCPConfig} {c d : TCPConnection} {seg : TCPSegment}

/-- A tick before the last attempt. -/
theorem not_lastAttempt (hspare : c.sender.retransmissionCount < TCPConfig.maxRetxAttempts)
    (ms : UInt64) : ¬ LastAttempt c ms := by
  rintro ⟨-, -, -, hlast⟩
  rw [hlast] at hspare
  exact absurd hspare (UInt32.lt_irrefl _)

/-- The first segment of the history is the SYN. -/
theorem length_of_first {s : TCPSender} (h : Tracked s) {acked rest : List TCPSegment}
    {front : TCPSegment} (hsplit : s.sent = acked ++ front :: rest)
    (hzero : seqLength acked = 0) : front.lengthInSequenceSpace ≤ 1 := by
  cases acked with
  | nil =>
    rw [h.segmented.syn_first front rest hsplit]
    exact Nat.le_refl 1
  | cons x xs =>
    have hpos := h.segmented.length_pos x (by rw [hsplit]; simp)
    rw [seqLength_cons] at hzero
    omega

/-- **The missing segment is sent again**, if one more retransmission is allowed. -/
theorem retransmits (h : Regular cfg c) (ho : Orderly c) (hexact : Exact c.sender)
    (hactive : c.isactive = true) (hflight : c.sender.lastAckno < c.sender.nextSeqno)
    (hspare : c.sender.retransmissionCount < TCPConfig.maxRetxAttempts) :
    ∃ ms d b seg, c.Step (.tick ms) d ∧ Retransmits c d b seg := by
  obtain ⟨acked, front, rest, hsplit, hqueue, hlow, hhigh⟩ :=
    hexact.front (Nat.sub_pos_of_lt hflight)
  have hdue := h.tracked.due (by rw [hqueue]; exact List.cons_ne_nil front rest)
  obtain ⟨front', rest', hcons, htick⟩ := TCPSender.tick_of_due hdue
  generalize c.sender.timer.remainingTime.toUInt64 = ms at hdue htick
  cases (hqueue.symm.trans hcons)
  have hlimit := mt (limit_iff h hactive).mp (not_lastAttempt hspare ms)
  have hnumber : front.header.seqno = wrap (seqLength acked) c.sender.isn := by
    have hnum := h.tracked.segmented.numbered
    rw [hsplit] at hnum
    rw [hnum.seqno_eq, Nat.zero_add]
  have hstep : c.Step (.tick ms) (c.tick ms) := rfl
  have hframe := tick_frame h hactive (not_lastAttempt hspare ms)
  have hclose := hstep.closes_iff h ho hactive (not_lastAttempt hspare ms)
  have hcontent := sameContent_fillHeader c.receiver front
  refine ⟨ms, _, seqLength acked, fillHeader c.receiver front, hstep, ?_⟩
  rw [tick_of_active hactive, if_neg hlimit] at hclose hframe ⊢
  constructor
  case active =>
    -- what is in flight keeps the connection open
    by_contra hclosed
    obtain ⟨-, -, hnext, hack⟩ := hframe.2.1.mp (hclose.mp (by simpa using hclosed)).1
    omega
  case receiver => exact cleanShutdown_receiver _
  case lastAckno =>
    rw [cleanShutdown_sender]
    exact c.sender.tick_lastAckno ms
  case emits =>
    rw [appended_ticked, htick, h.drained hactive]
    rfl
  case rst =>
    rw [rst_fillHeader]
    exact (flags_of_emitted h.tracked (.inl (by rw [hsplit]; simp))).2
  case seqno => rw [hcontent.seqno, hnumber]
  case low => exact hlow
  case high => rwa [hcontent.lengthInSequenceSpace]
  case syn =>
    rw [hcontent.lengthInSequenceSpace]
    exact length_of_first h.tracked hsplit
  case ack =>
    intro a ha
    obtain ⟨hflag, hackno, -⟩ := fillHeader_of_ackno ha front
    exact ⟨hflag, hackno⟩

/-! ## §3 Answers -/

/-- **Every segment with content is answered** with the number that the receiver has got to. -/
theorem answers (h : Regular cfg c) (hactive : c.isactive = true)
    (hbegun : 0 < c.sender.nextSeqno) (hrst : seg.header.rst = false) {r : TCPReceiver}
    (hr : c.receiver.segmentReceived seg = .ok r) :
    ∃ d, c.Step (.segmentReceived seg) d ∧ d.receiver = r ∧
      d.sender = { c.acknowledged seg with segmentsOut := [] } ∧
      (0 < seg.lengthInSequenceSpace → ∀ a, r.ackno = some a → ∃ out ∈ appended c d,
        out.header.rst = false ∧ out.header.ack = true ∧ out.header.ackno = a) := by
  have hopen : ¬ (r.stateSummary = .synRecv ∧ c.sender.stateSummary = .closed) := by
    rintro ⟨-, hclosed⟩
    have := TCPSender.nextSeqno_of_closed hclosed
    omega
  have hstep := segmentReceived_eq hactive hrst hr
  rw [if_neg hopen] at hstep
  refine ⟨_, hstep, cleanShutdown_receiver _, c.answered_sender seg r, ?_⟩
  intro hcontent a ha
  rw [appended_answered]
  -- the reply is not empty
  have hne : (c.answered seg r).sender.segmentsOut ≠ [] := by
    have hreply := reply_cases { c with timeSinceLastSegmentReceived := 0, receiver := r } seg
    change (((c.answered seg r).sender = _) ∧ _) ∨ _ at hreply
    rcases hreply with ⟨heq, hquiet, -⟩ | ⟨heq, -⟩
    · rw [heq]
      exact fun hnil => hquiet ⟨hcontent, hnil⟩
    · rw [show (c.answered seg r).sender = _ from heq]
      simp [TCPSender.sendEmptySegment]
  obtain ⟨base, rest, hcons⟩ := List.exists_cons_of_ne_nil hne
  have hmem : base ∈ (c.answered seg r).sender.segmentsOut := by
    rw [hcons]
    exact List.mem_cons_self
  obtain ⟨hack, hackno, -⟩ := fillHeader_of_ackno ha base
  refine ⟨fillHeader r base, List.mem_map_of_mem hmem, ?_, hack, hackno⟩
  rw [rst_fillHeader]
  have htracked := ((reply_moves { c with timeSinceLastSegmentReceived := 0, receiver := r }
    rfl hrst).tracked h.tracked).1
  exact (flags_of_emitted htracked (htracked.emitted base hmem)).2

/-- **The acknowledgement of a number up to the next one to be sent is taken over.** -/
theorem lastAckno_of_acknowledged (h : Tracked c.sender) {t : ℕ} (hack : seg.header.ack = true)
    (hackno : seg.header.ackno = wrap t c.sender.isn) (hlow : c.sender.lastAckno ≤ t)
    (hhigh : t ≤ c.sender.nextSeqno) (hnear : c.sender.nextSeqno ≤ 2 ^ 31) :
    (c.acknowledged seg).lastAckno = t := by
  have hvalue : unwrap seg.header.ackno c.sender.isn c.sender.lastAckno = t := by
    rw [hackno]
    exact unwrap_wrap _ (by omega) (by omega) (by omega) (by omega)
  unfold acknowledged TCPSender.ackReceived
  rw [if_pos hack]
  split
  · -- only a number that was never sent is ignored
    rename_i hnone
    have := TCPSender.acceptAck_eq_none_iff.mp hnone
    omega
  · rename_i s hacc
    obtain ⟨new, hsends⟩ := (h.acceptAck hacc).fillWindow_sends
    rw [hsends.lastAckno]
    rcases TCPSender.acceptAck_cases hacc with ⟨-, -, rfl⟩ | ⟨hold, rfl⟩
    · exact hvalue
    · dsimp only
      omega

/-! ## §4 Closing -/

/-- **A connection whose directions are done** is closed when it has waited long enough. -/
theorem closes_of_done (h : Regular cfg c) (ho : Orderly c) (hexact : Exact c.sender)
    (hactive : c.isactive = true) (hdone : Done c) :
    ∃ ms d, c.Step (.tick ms) d ∧ ¬ LastAttempt c ms ∧ d.isactive = false := by
  -- nothing is in flight, so nothing is retransmitted
  have hempty : c.sender.outstandingSeg = [] := by
    apply hexact.empty
    obtain ⟨-, -, hnext, hack⟩ := hdone
    unfold TCPSender.bytesInFlight
    omega
  have hlast : ∀ ms, ¬ LastAttempt c ms := fun ms hlast => hlast.2.1.1 hempty
  have hwait := c.cfg.rtTimeout.toNat_lt
  have htime := c.timeSinceLastSegmentReceived.toNat_lt
  -- the time that is missing
  obtain ⟨ms, hms⟩ : ∃ ms : UInt64, ms.toNat =
      10 * c.cfg.rtTimeout.toNat - c.timeSinceLastSegmentReceived.toNat :=
    ⟨UInt64.ofNat (10 * c.cfg.rtTimeout.toNat - c.timeSinceLastSegmentReceived.toNat), by
      rw [UInt64.toNat_ofNat']
      omega⟩
  have hstep : c.Step (.tick ms) (c.tick ms) := rfl
  obtain ⟨hcfg, hdone', -⟩ := tick_frame h hactive (hlast ms)
  refine ⟨ms, _, hstep, hlast ms, (hstep.closes_iff h ho hactive (hlast ms)).mpr
    ⟨hdone'.mpr hdone, .inr ?_⟩⟩
  have hsum : (c.tick ms).timeSinceLastSegmentReceived.toNat =
      sinceAfter c.timeSinceLastSegmentReceived.toNat (.tick ms) % 2 ^ 64 :=
    hstep.time hactive (Nat.mod_eq_of_lt htime).symm
  rw [hsum, hcfg]
  simp only [sinceAfter]
  omega

end Recovery

/-! ## §5 What every operation keeps -/

/-- What a connection needs to make up for lost segments. -/
structure Recoverable (cfg : TCPConfig) (c : TCPConnection) : Prop where
  regular : Regular cfg c
  orderly : Orderly c
  settled : TCPSender.Settled c.sender
  exact : Exact c.sender
  sized : Sized cfg.recvCapacity c.receiver
  shut : c.receiver.Shut

theorem Recoverable.new (cfg : TCPConfig) (randomDevice : UInt32) :
    Recoverable cfg (.new cfg randomDevice) where
  regular := Regular.new cfg randomDevice
  orderly := Orderly.new cfg randomDevice
  settled := (Driven.new cfg randomDevice).settled
  exact := by
    have hnew := (Regular.new cfg randomDevice).tracked
    refine (TCPSender.exact_iff_frontPending hnew).mpr ?_
    simp [TCPSender.FrontPending, TCPConnection.new, TCPSender.new]
  sized := ⟨rfl, rfl⟩
  shut := nofun

section Step

variable {cfg : TCPConfig} {c d : TCPConnection} {op : Op}

theorem Step.shut (h : c.Step op d) (hc : c.receiver.Shut) : d.receiver.Shut := by
  cases h.receiver_moves with
  | same heq => rw [heq]; exact hc
  | failed heq => rw [heq]; exact hc
  | read len heq => rw [heq]; exact hc
  | received seg _ _ _ hr => exact hc.segmentReceived hr

theorem Recoverable.step (h : Recoverable cfg c) (hstep : c.Step op d)
    (hraw : d.sender.Unwrapped) : Recoverable cfg d where
  regular := h.regular.step hstep
  orderly := h.orderly.step h.regular.tracked hstep
  settled := hstep.sender_moves.settled h.regular.tracked h.settled
  exact := hstep.sender_moves.exact h.regular.tracked h.exact hraw
  sized := h.sized.step hstep
  shut := hstep.shut h.shut

/-- The operation neither writes nor breaks the connection off. -/
def Gentle (c : TCPConnection) : Op → Prop
  | .write _ => False
  | .segmentReceived seg => seg.header.rst = false
  | .tick ms => ¬ LastAttempt c ms
  | _ => True

/-- **Only a reset and the last attempt set an error flag.** -/
theorem Step.errors (hstep : c.Step op d) (h : Regular cfg c) (hop : Gentle c op) :
    d.sender.stream.error = c.sender.stream.error ∧
      d.inboundStream.error = c.inboundStream.error := by
  cases hstep.effect with
  | ignored => exact ⟨rfl, rfl⟩
  | read => exact ⟨rfl, rfl⟩
  | filled hb =>
    obtain ⟨new, hsends⟩ := (hb.tracked h.tracked).fillWindow_sends
    exact ⟨hsends.error.trans hb.errors_eq.1, hb.errors_eq.2⟩
  | reset seg _ hrst => exact absurd (hrst.symm.trans hop) (by simp)
  | replied seg r _ _ hr =>
    rw [answered_sender, inboundStream, cleanShutdown_receiver]
    exact ⟨(acknowledged_frame h.tracked seg).1, TCPReceiver.error_segmentReceived hr⟩
  | aborted ms hactive hlimit => exact absurd ((limit_iff h hactive).mp hlimit) hop
  | ticked ms => exact ticked_errors c ms

end Step

end TCPConnection

end Sponge
