import Sponge.TCPOverIP

/-!
# A Listening Adapter Locks on to Its Peer

`unwrap_tcp_in_ip` filters with the addresses and ports of its configuration, and a listening
adapter rewrites that configuration in the middle of the function.  This file follows an adapter
through any sequence of datagrams:

* **the filter** (`unwrapTcpInIp_datagram`): the function in terms of the segment, if any, that
  a datagram carries;
* **the two phases** (`unwrapTcpInIp_listening`, `unwrapTcpInIp_locked`): what one datagram
  can do before and after the adapter has found its peer;
* **runs** (`unwraps_listening`): foreign traffic neither passes nor changes anything until the
  first segment that opens a connection, and from then on only its flow passes.
-/

namespace Sponge

/-! ## §1 Datagrams and what they carry -/

/-- A datagram as `IPv4Datagram::parse` yields it: the payload is one buffer. -/
structure ParsedDatagram where
  header : IPv4Header
  buffer : Bytes

namespace ParsedDatagram

/-- The datagram itself. -/
def datagram (p : ParsedDatagram) : IPv4Datagram where
  header := p.header
  payload := .ofBuffer p.buffer

/-- The segment that the datagram carries, if it claims to and the payload parses. -/
def segment (p : ParsedDatagram) : Option TCPSegment :=
  if p.header.proto ≠ IPv4Header.PROTO_TCP then none
  else
    match TCPSegment.parse {} p.buffer p.header.pseudoCksum with
    | (.NoError, seg) => some seg
    | _ => none

/-- The datagram carries a segment that opens a connection to the local port `port`. -/
def Opens (port : UInt16) (p : ParsedDatagram) (seg : TCPSegment) : Prop :=
  p.segment = some seg ∧ seg.header.dport = port ∧ seg.header.syn = true ∧ seg.header.rst = false

/-- Two datagrams and their segments are of one flow: the same two hosts and the same two
    ports, in the same direction. -/
def SameFlow (p : ParsedDatagram) (pseg : TCPSegment) (q : ParsedDatagram) (qseg : TCPSegment) :
    Prop :=
  p.header.src = q.header.src ∧ pseg.header.sport = qseg.header.sport ∧
    p.header.dst = q.header.dst ∧ pseg.header.dport = qseg.header.dport

end ParsedDatagram

/-- What `IPv4Datagram::parse` leaves, whatever its verdict. -/
theorem IPv4Datagram.parse_parsed (old : IPv4Datagram) (buffer : Bytes) :
    ∃ p : ParsedDatagram, (old.parse buffer).2 = p.datagram := by
  rcases hheader : old.header.parse { buffer } with ⟨⟨result, header⟩, rest⟩
  refine ⟨⟨header, rest.buffer⟩, ?_⟩
  simp only [parse, hheader]
  split <;> rfl

namespace TCPOverIPv4Adapter

open ParsedDatagram (Opens SameFlow)

/-! ## §2 One datagram -/

section Step

variable (a : TCPOverIPv4Adapter) (p : ParsedDatagram)

/-- **The filter.**  What the function makes of a datagram, by the segment it carries. -/
theorem unwrapTcpInIp_datagram :
    a.unwrapTcpInIp p.datagram = .ok (
      if !a.listening && p.header.dst ≠ a.source.ipv4Numeric then (none, a)
      else if !a.listening && p.header.src ≠ a.destination.ipv4Numeric then (none, a)
      else match p.segment with
        | none => (none, a)
        | some seg => a.acceptSegment p.datagram seg) := by
  have hbuffer : p.datagram.payload.toBuffer = .ok p.buffer := rfl
  have hheader : p.datagram.header = p.header := rfl
  simp only [unwrapTcpInIp, hbuffer, hheader, ParsedDatagram.segment, bind, Except.bind]
  split
  · rfl
  split
  · rfl
  split
  · rfl
  rcases TCPSegment.parse {} p.buffer p.header.pseudoCksum with ⟨result, seg⟩
  cases result <;> rfl

/-- The adapter after a segment has opened a connection. -/
def lockedOn (seg : TCPSegment) : TCPOverIPv4Adapter where
  source := ⟨p.header.dst, a.source.port⟩
  destination := ⟨p.header.src, seg.header.sport⟩
  listening := false

variable {a p}

/-- The listening phase: only a segment that opens a connection does anything. -/
theorem unwrapTcpInIp_listening (hlistening : a.listening = true) :
    (∃ seg, p.Opens a.source.port seg ∧
        a.unwrapTcpInIp p.datagram = .ok (some seg, a.lockedOn p seg)) ∨
      (¬ ∃ seg, p.Opens a.source.port seg) ∧ a.unwrapTcpInIp p.datagram = .ok (none, a) := by
  rw [unwrapTcpInIp_datagram, hlistening]
  cases hsegment : p.segment with
  | none =>
    refine .inr ⟨?_, rfl⟩
    rintro ⟨seg, hcarried, -⟩
    rw [hsegment] at hcarried
    cases hcarried
  | some seg =>
    have hother : ∀ {seg' : TCPSegment}, p.Opens a.source.port seg' → seg' = seg := fun h =>
      Option.some.inj (h.1.symm.trans hsegment)
    by_cases hopens : p.Opens a.source.port seg
    · obtain ⟨-, hport, hsyn, hrst⟩ := id hopens
      refine .inl ⟨seg, hopens, ?_⟩
      simp [acceptSegment, lockedOn, hlistening, hport, hsyn, hrst, ParsedDatagram.datagram]
    · have hnone : ¬ ∃ seg', p.Opens a.source.port seg' := by
        rintro ⟨seg', hopens'⟩
        exact hopens (hother hopens' ▸ hopens')
      refine .inr ⟨hnone, ?_⟩
      -- it is for another port, or it is no SYN, or it is a reset
      by_cases hport : seg.header.dport = a.source.port
      · have hflags : (seg.header.syn && !seg.header.rst) = false := by
          have hreject : ¬ (seg.header.syn = true ∧ seg.header.rst = false) := fun h =>
            hopens ⟨hsegment, hport, h⟩
          simpa using hreject
        simp [acceptSegment, hlistening, hport, hflags]
      · simp [acceptSegment, hport]

/-- The locked phase: the configuration stays, and what passes is from the configured peer. -/
theorem unwrapTcpInIp_locked (hlocked : a.listening = false) :
    ∃ result, a.unwrapTcpInIp p.datagram = .ok (result, a) ∧ ∀ seg, result = some seg →
      p.segment = some seg ∧ p.header.dst = a.source.ipv4Numeric ∧
        p.header.src = a.destination.ipv4Numeric ∧ seg.header.dport = a.source.port ∧
        seg.header.sport = a.destination.port := by
  rw [unwrapTcpInIp_datagram, hlocked]
  by_cases hdst : p.header.dst = a.source.ipv4Numeric
  · by_cases hsrc : p.header.src = a.destination.ipv4Numeric
    · cases hsegment : p.segment with
      | none => exact ⟨none, by simp [hdst, hsrc], by rintro _ ⟨⟩⟩
      | some seg =>
        by_cases hports : seg.header.dport = a.source.port ∧
            seg.header.sport = a.destination.port
        · refine ⟨some seg, by simp [acceptSegment, hdst, hsrc, hports, hlocked], ?_⟩
          rintro _ ⟨⟩
          exact ⟨rfl, hdst, hsrc, hports⟩
        · refine ⟨none, ?_, by rintro _ ⟨⟩⟩
          by_cases hdport : seg.header.dport = a.source.port
          · have hsport : seg.header.sport ≠ a.destination.port := fun h => hports ⟨hdport, h⟩
            simp [acceptSegment, hdst, hsrc, hdport, hsport, hlocked]
          · simp [acceptSegment, hdst, hsrc, hdport]
    · exact ⟨none, by simp [hdst, hsrc], by rintro _ ⟨⟩⟩
  · exact ⟨none, by simp [hdst], by rintro _ ⟨⟩⟩

end Step

/-! ## §3 Sequences of datagrams -/

/-- The results of `unwrap_tcp_in_ip` on one datagram after another, each with the adapter that
    it leaves. -/
def unwraps (a : TCPOverIPv4Adapter) :
    List ParsedDatagram → Except RuntimeError (List (Option TCPSegment × TCPOverIPv4Adapter))
  | [] => .ok []
  | p :: packets => do
    let outcome ← a.unwrapTcpInIp p.datagram
    let outcomes ← outcome.2.unwraps packets
    return outcome :: outcomes

theorem unwraps_cons {a a' : TCPOverIPv4Adapter} {p : ParsedDatagram} {result : Option TCPSegment}
    {packets : List ParsedDatagram} {outcomes : List (Option TCPSegment × TCPOverIPv4Adapter)}
    (hstep : a.unwrapTcpInIp p.datagram = .ok (result, a'))
    (hrest : a'.unwraps packets = .ok outcomes) :
    a.unwraps (p :: packets) = .ok ((result, a') :: outcomes) := by
  simp only [unwraps, hstep, bind, Except.bind, hrest]
  rfl

/-- A locked adapter stays as it is, and only its flow passes. -/
theorem unwraps_locked {a : TCPOverIPv4Adapter} (first : ParsedDatagram) (opening : TCPSegment)
    (hport : opening.header.dport = a.source.port) (packets : List ParsedDatagram) :
    ∃ results : List (Option TCPSegment),
      (a.lockedOn first opening).unwraps packets =
        .ok (results.map fun result => (result, a.lockedOn first opening)) ∧
      List.Forall₂ (fun p result => ∀ seg, result = some seg →
        p.segment = some seg ∧ SameFlow p seg first opening) packets results := by
  induction packets with
  | nil => exact ⟨[], rfl, .nil⟩
  | cons p packets ih =>
    obtain ⟨results, hrest, hflow⟩ := ih
    obtain ⟨result, hstep, hpasses⟩ :=
      unwrapTcpInIp_locked (a := a.lockedOn first opening) (p := p) rfl
    refine ⟨result :: results, unwraps_cons hstep hrest, .cons ?_ hflow⟩
    intro seg hseg
    obtain ⟨hsegment, hdst, hsrc, hdport, hsport⟩ := hpasses seg hseg
    exact ⟨hsegment, hsrc, hsport, hdst, hdport.trans hport.symm⟩

/-- **A listening adapter locks on to its peer.**  Until the first datagram with a segment that
    opens a connection to the local port nothing passes and nothing changes.  That segment
    passes and fixes the configuration, and whatever passes after it is of the same flow. -/
theorem unwraps_listening (source destination : Address) (packets : List ParsedDatagram) :
    let a : TCPOverIPv4Adapter := ⟨source, destination, true⟩
    ((¬ ∃ p ∈ packets, ∃ seg, p.Opens source.port seg) ∧
        a.unwraps packets = .ok (packets.map fun _ => (none, a))) ∨
      ∃ before first after opening results,
        packets = before ++ first :: after ∧
        (¬ ∃ p ∈ before, ∃ seg, p.Opens source.port seg) ∧ first.Opens source.port opening ∧
        a.unwraps packets = .ok ((before.map fun _ => (none, a)) ++
          (some opening, a.lockedOn first opening) ::
            results.map fun result => (result, a.lockedOn first opening)) ∧
        List.Forall₂ (fun p result => ∀ seg, result = some seg →
          p.segment = some seg ∧ SameFlow p seg first opening) after results := by
  intro a
  induction packets with
  | nil => exact .inl ⟨by simp, rfl⟩
  | cons p packets ih =>
    rcases unwrapTcpInIp_listening (a := a) (p := p) rfl with
      ⟨opening, hopens, hstep⟩ | ⟨hforeign, hstep⟩
    · obtain ⟨results, hrest, hflow⟩ := unwraps_locked (a := a) p opening hopens.2.1 packets
      exact .inr ⟨[], p, packets, opening, results, rfl, by simp, hopens,
        unwraps_cons hstep hrest, hflow⟩
    · -- a foreign datagram leaves everything to the rest of the sequence
      rcases ih with ⟨hnone, hrun⟩ | ⟨before, first, after, opening, results, hsplit, hnone,
        hopens, hrun, hflow⟩
      · refine .inl ⟨?_, unwraps_cons hstep hrun⟩
        rw [List.exists_mem_cons_iff]
        exact not_or.mpr ⟨hforeign, hnone⟩
      · refine .inr ⟨p :: before, first, after, opening, results, by rw [hsplit]; rfl, ?_,
          hopens, unwraps_cons hstep hrun, hflow⟩
        rw [List.exists_mem_cons_iff]
        exact not_or.mpr ⟨hforeign, hnone⟩

end TCPOverIPv4Adapter

end Sponge
