import Sponge.Adapters
import Sponge.Codec.Encapsulation
import Sponge.Codec.Locking

/-!
# What One Adapter Writes, Another Reads

An adapter fills in the ports and the checksum of a segment and packs it into a datagram.  If an
adapter at the other end finds a segment in that datagram, it is the same segment up to what was
filled in.  `LawfulFdAdapter` says so for any two configurations, and it holds of every adapter
that the repository instantiates a socket with:

* **the TUN adapter** (`writes_carrier`, `segment_of_unwrap`): through the codecs of segments and of
  datagrams;
* **the UDP adapter** (`TCPOverUDPSocketAdapter.write_eq`): through the codec of segments;
* **the lossy adapter**: it only drops.

`SafeFdAdapter` says that an adapter raises no exception: no bytes from the network make `read`
throw, and every segment that a connection emits can be written.
-/

namespace Sponge

namespace TCPSegment

/-- The segment without what the adapters fill in. -/
def unaddressed (seg : TCPSegment) : TCPSegment :=
  { seg with header := { seg.header with sport := 0, dport := 0, cksum := 0 } }

/-- A segment as connections emit them: without options, and small. -/
structure Sendable (seg : TCPSegment) : Prop where
  doff : seg.header.doff = 5
  payload : seg.payload.length ≤ TCPConfig.maxPayloadSize

end TCPSegment

/-- Between two adapters of the type, whatever their configurations, a segment only changes in
    what the adapters fill in. -/
class LawfulFdAdapter (α : Type) (δ : outParam Type) [FdAdapter α δ] : Prop where
  read_write {a b b' : α} {seg seg' : TCPSegment} {datagram : δ} {random random' : UInt32} :
    seg.Sendable → FdAdapter.write a seg random = .ok (some datagram) →
      FdAdapter.read b datagram random' = .ok (some seg', b') → seg'.unaddressed = seg.unaddressed

/-- Adapters that raise no exception. -/
class SafeFdAdapter (α : Type) (δ : outParam Type) [FdAdapter α δ] where
  /-- within the limits of the layer below -/
  Fits : δ → Prop
  read_returns (a : α) {datagram : δ} (random : UInt32) : Fits datagram →
    ∃ result, FdAdapter.read a datagram random = .ok result
  payload_le {a a' : α} {datagram : δ} {random : UInt32} {seg : TCPSegment} :
    FdAdapter.read a datagram random = .ok (some seg, a') → seg.payload.length ≤ 65536
  write_returns (a : α) {seg : TCPSegment} (random : UInt32) : seg.Sendable →
    ∃ sent, FdAdapter.write a seg random = .ok sent

/-- A segment is no longer than the bytes it was parsed from. -/
theorem TCPSegment.payload_le_of_parse {old seg : TCPSegment} {b : Bytes} {c : UInt32}
    (h : old.parse b c = (.NoError, seg)) : seg.payload.length ≤ b.length := by
  have hresult : (old.parse b c).1 = .NoError := by rw [h]
  have hpayload := TCPSegment.payload_of_parse hresult
  rw [h] at hpayload
  rw [show seg.payload = _ from hpayload, List.length_drop]
  omega

/-! ## §1 The TUN adapter -/

namespace TCPOverIPv4Adapter

/-- What is unwrapped is the segment that the datagram carries. -/
theorem segment_of_unwrap {a a' : TCPOverIPv4Adapter} {p : ParsedDatagram} {seg : TCPSegment}
    (h : a.unwrapTcpInIp p.datagram = .ok (some seg, a')) : p.segment = some seg := by
  cases hlistening : a.listening with
  | true =>
    rcases unwrapTcpInIp_listening (p := p) hlistening with ⟨seg', hopens, hrun⟩ | ⟨-, hrun⟩
    · rw [h] at hrun
      cases hrun
      exact hopens.1
    · rw [h] at hrun
      cases hrun
  | false =>
    obtain ⟨result, hrun, hpasses⟩ := unwrapTcpInIp_locked (p := p) hlistening
    rw [h] at hrun
    cases hrun
    exact (hpasses seg rfl).1

end TCPOverIPv4Adapter

namespace TCPOverIPv4OverTunFdAdapter

/-- The bytes that are written for a segment parse as a datagram that carries it. -/
theorem writes_carrier (a : TCPOverIPv4OverTunFdAdapter) {seg : TCPSegment} (h : seg.Sendable) :
    ∃ bytes cksum p, a.write seg = .ok bytes ∧
      IPv4Datagram.parse {} bytes = (.NoError, ParsedDatagram.datagram p) ∧
      p.segment = some { a.setPorts seg with
        header := { (a.setPorts seg).header with cksum } } := by
  have hpayload := h.payload
  generalize hheader : (a.setPorts seg).header = header
  have hseg : a.setPorts seg = ⟨header, seg.payload⟩ := by rw [← hheader]; rfl
  have hdoff : header.doff = 5 := by rw [← hheader]; exact h.doff
  have hlow : 5 ≤ header.doff := by rw [hdoff]; decide
  have hhigh : header.doff ≤ 15 := by rw [hdoff]; decide
  have hfive : header.doff.toNat = 5 := by rw [hdoff]; rfl
  have hmax : TCPConfig.maxPayloadSize = 1000 := rfl
  -- the checksum of the segment, with the pseudo-header of the datagram
  obtain ⟨cksum, -, hcksum, hserialize⟩ := TCPSegment.serialize_eq seg.payload hlow
    (a.datagramHeader ⟨header, seg.payload⟩).pseudoCksum
  have hvalue := TCPSegment.value_serialized (.inr ⟨_, rfl⟩) hlow (by omega) hcksum
  -- the datagram around it
  obtain ⟨out, ipCksum, hout, -, hparse⟩ := TCPOverIPv4Adapter.parse_datagram
    (a := a.toTCPOverIPv4Adapter) (h := { header with cksum })
    (show 20 + 4 * header.doff.toNat + seg.payload.length ≤ _ by omega) hlow
  have hout' : IPv4Datagram.serialize ⟨a.datagramHeader ⟨header, seg.payload⟩,
      ⟨[{ header with cksum }.padded, seg.payload]⟩⟩ = .ok out := hout
  refine ⟨out.concatenate, cksum, ⟨{ a.datagramHeader ⟨header, seg.payload⟩ with cksum := ipCksum },
    ({ header with cksum } : TCPHeader).padded ++ seg.payload⟩, ?_, hparse, ?_⟩
  · have hwrap : a.wrapTcpInIp seg = .ok (⟨a.datagramHeader ⟨header, seg.payload⟩,
        ⟨[{ header with cksum }.padded, seg.payload]⟩⟩, a.setPorts seg) := by
      simp only [TCPOverIPv4Adapter.wrapTcpInIp, hseg, hserialize, bind, Except.bind]
      rfl
    rw [write, hwrap, Loop.ok_bind]
    dsimp only
    rw [hout', Loop.ok_bind]
    rfl
  · rw [hseg, ParsedDatagram.segment, if_neg fun hproto => hproto rfl]
    have hpseudo : IPv4Header.pseudoCksum
        { a.datagramHeader ⟨header, seg.payload⟩ with cksum := ipCksum } =
          (a.datagramHeader ⟨header, seg.payload⟩).pseudoCksum := rfl
    rw [hpseudo, TCPSegment.parse_padded (h := { header with cksum }) hlow hhigh hvalue {}]

/-- What `read` finds in such bytes. -/
theorem segment_of_read {a b b' : TCPOverIPv4OverTunFdAdapter} {seg seg' : TCPSegment}
    {bytes : Bytes} (h : seg.Sendable) (hwrite : a.write seg = .ok bytes)
    (hread : b.read bytes = .ok (some seg', b')) :
    ∃ cksum, seg' = { a.setPorts seg with header := { (a.setPorts seg).header with cksum } } := by
  obtain ⟨bytes', cksum, p, hwrite', hparse, hcarries⟩ := a.writes_carrier h
  cases hwrite.symm.trans hwrite'
  simp only [read, hparse, ne_eq, not_true_eq_false, if_false] at hread
  cases hunwrap : b.unwrapTcpInIp p.datagram with
  | error e =>
    rw [hunwrap] at hread
    cases hread
  | ok result =>
    obtain ⟨found, adapter⟩ := result
    rw [hunwrap] at hread
    cases hread
    have hfound := TCPOverIPv4Adapter.segment_of_unwrap hunwrap
    exact ⟨cksum, Option.some.inj (hfound.symm.trans hcarries)⟩

instance : LawfulFdAdapter TCPOverIPv4OverTunFdAdapter Bytes where
  read_write := by
    intro a b b' seg seg' bytes _ _ h hwrite hread
    have hwrite' : a.write seg = .ok bytes := by
      cases hrun : a.write seg with
      | error e => simp [FdAdapter.write, hrun, Except.map] at hwrite
      | ok out => simpa [FdAdapter.write, hrun, Except.map] using hwrite
    obtain ⟨cksum, rfl⟩ := segment_of_read h hwrite' hread
    rfl

/-- The ways through `read`. -/
theorem read_cases (a : TCPOverIPv4OverTunFdAdapter) (bytes : Bytes) :
    a.read bytes = .ok (none, a) ∨
      ∃ p : ParsedDatagram, p.buffer.length < 65536 ∧ ∃ result adapter,
        a.unwrapTcpInIp p.datagram = .ok (result, adapter) ∧
        a.read bytes = .ok (result, ⟨adapter⟩) := by
  unfold read
  dsimp only
  by_cases hresult : (IPv4Datagram.parse {} bytes).1 = .NoError
  · right
    rw [if_neg (by simp [hresult])]
    rw [IPv4Datagram.parse_eq] at hresult ⊢
    generalize IPv4Header.parse _ { buffer := bytes } = run at hresult ⊢
    obtain ⟨⟨verdict, header⟩, rest⟩ := run
    refine ⟨⟨header, rest.buffer⟩, ?_, ?_⟩
    · -- the length of the payload is a 16-bit field
      dsimp only at hresult ⊢
      split at hresult
      · cases hresult
      · rename_i hsize
        rw [not_not.mp hsize]
        exact header.payloadLength.toNat_lt
    · obtain ⟨⟨result, adapter⟩, hunwrap⟩ : ∃ result,
          a.unwrapTcpInIp (ParsedDatagram.datagram ⟨header, rest.buffer⟩) = .ok result :=
        ⟨_, a.unwrapTcpInIp_datagram _⟩
      refine ⟨result, adapter, hunwrap, ?_⟩
      have hdatagram : (⟨header, .ofBuffer rest.buffer⟩ : IPv4Datagram) =
        ParsedDatagram.datagram ⟨header, rest.buffer⟩ := rfl
      dsimp only
      rw [hdatagram, hunwrap]
      rfl
  · exact .inl (if_pos hresult)

instance : SafeFdAdapter TCPOverIPv4OverTunFdAdapter Bytes where
  Fits _ := True
  read_returns := by
    intro a bytes _ _
    rcases a.read_cases bytes with hread | ⟨p, -, result, adapter, -, hread⟩
    · exact ⟨_, hread⟩
    · exact ⟨_, hread⟩
  payload_le := by
    intro a a' bytes _ seg h
    rcases a.read_cases bytes with hread | ⟨p, hsize, result, adapter, hunwrap, hread⟩
    · cases h.symm.trans hread
    · cases h.symm.trans hread
      -- the segment is parsed from the payload of the datagram
      have hsegment := TCPOverIPv4Adapter.segment_of_unwrap hunwrap
      unfold ParsedDatagram.segment at hsegment
      split at hsegment
      · cases hsegment
      · split at hsegment
        · rename_i seg' hparse
          cases hsegment
          have hle := TCPSegment.payload_le_of_parse hparse
          omega
        · cases hsegment
  write_returns := by
    intro a seg _ h
    obtain ⟨bytes, _, _, hwrite, -⟩ := a.writes_carrier h
    exact ⟨some bytes, by simp [FdAdapter.write, hwrite, Except.map]⟩

end TCPOverIPv4OverTunFdAdapter

/-! ## §2 The UDP adapter -/

namespace TCPOverUDPSocketAdapter

/-- The payload that is written for a segment parses as that segment. -/
theorem write_eq (a : TCPOverUDPSocketAdapter) {seg : TCPSegment} (h : seg.Sendable) :
    ∃ payload cksum, a.write seg = .ok ⟨a.localAddress, a.destination, payload⟩ ∧
      TCPSegment.parse {} payload 0 = (.NoError, { a.setPorts seg with
        header := { (a.setPorts seg).header with cksum } }) := by
  have hpayload := h.payload
  generalize hheader : (a.setPorts seg).header = header
  have hseg : a.setPorts seg = ⟨header, seg.payload⟩ := by rw [← hheader]; rfl
  have hdoff : header.doff = 5 := by rw [← hheader]; exact h.doff
  have hlow : 5 ≤ header.doff := by rw [hdoff]; decide
  have hhigh : header.doff ≤ 15 := by rw [hdoff]; decide
  have hfive : header.doff.toNat = 5 := by rw [hdoff]; rfl
  have hmax : TCPConfig.maxPayloadSize = 1000 := rfl
  obtain ⟨cksum, -, hcksum, hserialize⟩ := TCPSegment.serialize_eq seg.payload hlow 0
  have hvalue := TCPSegment.value_serialized (.inl rfl) hlow (by omega) hcksum
  refine ⟨({ header with cksum } : TCPHeader).padded ++ seg.payload, cksum, ?_, ?_⟩
  · rw [write, hseg, hserialize, Loop.ok_bind]
    simp [BufferList.concatenate, pure, Except.pure]
  · rw [hseg, TCPSegment.parse_padded (h := { header with cksum }) hlow hhigh hvalue {}]

/-- What `read` returns is what the payload parses as. -/
theorem segment_of_read {a a' : TCPOverUDPSocketAdapter} {datagram : UDPDatagram}
    {seg : TCPSegment} (h : a.read datagram = .ok (some seg, a')) :
    TCPSegment.parse {} datagram.payload 0 = (.NoError, seg) := by
  unfold read recv at h
  split at h
  · cases h
  · rcases hparse : TCPSegment.parse {} datagram.payload 0 with ⟨result, found⟩
    simp only [Loop.ok_bind, hparse] at h
    by_cases hresult : result = .NoError
    · split_ifs at h <;> cases h <;> simp [hresult]
    · split_ifs at h <;> cases h

instance : LawfulFdAdapter TCPOverUDPSocketAdapter UDPDatagram where
  read_write := by
    intro a b b' seg seg' datagram _ _ h hwrite hread
    obtain ⟨payload, cksum, hrun, hparse⟩ := a.write_eq h
    simp only [FdAdapter.write, hrun, Except.map, Except.ok.injEq, Option.some.injEq] at hwrite
    subst hwrite
    have hfound := segment_of_read hread
    rw [hparse] at hfound
    cases hfound
    rfl

/-- A datagram that fits into the buffer of `recv` is looked at. -/
theorem recv_of_fits {datagram : UDPDatagram} (h : datagram.payload.length ≤ 65536) :
    recv datagram = .ok datagram :=
  if_neg (by omega)

instance : SafeFdAdapter TCPOverUDPSocketAdapter UDPDatagram where
  Fits datagram := datagram.payload.length ≤ 65536
  read_returns := by
    intro a datagram _ hfits
    dsimp only [FdAdapter.read, read]
    rw [recv_of_fits hfits, Loop.ok_bind]
    split_ifs <;> exact ⟨_, rfl⟩
  payload_le := by
    intro a a' datagram _ seg h
    have hle := TCPSegment.payload_le_of_parse (segment_of_read h)
    have hfits : datagram.payload.length ≤ 65536 := by
      by_contra hlong
      have hread : a.read datagram = .error ⟨"recvfrom (oversized datagram)"⟩ := by
        rw [read, recv, if_pos (by omega)]
        rfl
      cases h.symm.trans hread
    omega
  write_returns := by
    intro a seg _ h
    obtain ⟨payload, _, hwrite, -⟩ := a.write_eq h
    exact ⟨some ⟨a.localAddress, a.destination, payload⟩,
      by simp only [FdAdapter.write, hwrite, Except.map]⟩

end TCPOverUDPSocketAdapter

/-! ## §3 The lossy adapter -/

namespace LossyFdAdapter

variable {α δ : Type} [FdAdapter α δ]

/-- What passes has passed the adapter inside. -/
theorem read_of_some {a a' : LossyFdAdapter α} {datagram : δ} {random : UInt32}
    {seg : TCPSegment} (h : a.read datagram random = .ok (some seg, a')) :
    FdAdapter.read a.adapter datagram random = .ok (some seg, a'.adapter) := by
  unfold read at h
  cases hread : FdAdapter.read a.adapter datagram random with
  | error e =>
    rw [hread] at h
    cases h
  | ok result =>
    obtain ⟨ret, adapter⟩ := result
    rw [hread, Loop.ok_bind] at h
    dsimp only at h
    split at h <;> cases h
    rfl

instance [LawfulFdAdapter α δ] : LawfulFdAdapter (LossyFdAdapter α) δ where
  read_write := by
    intro a b b' seg seg' datagram random _ h hwrite hread
    have hwrite' : a.write seg random = .ok (some datagram) := hwrite
    unfold write at hwrite'
    split at hwrite'
    · cases hwrite'
    · exact LawfulFdAdapter.read_write h hwrite' (read_of_some hread)

instance [SafeFdAdapter α δ] : SafeFdAdapter (LossyFdAdapter α) δ where
  Fits datagram := SafeFdAdapter.Fits α datagram
  read_returns := by
    intro a datagram random hfits
    obtain ⟨⟨ret, adapter⟩, hread⟩ := SafeFdAdapter.read_returns a.adapter random hfits
    dsimp only [FdAdapter.read, read]
    rw [hread, Loop.ok_bind]
    dsimp only
    split <;> exact ⟨_, rfl⟩
  payload_le h := SafeFdAdapter.payload_le (read_of_some h)
  write_returns := by
    intro a seg random h
    dsimp only [FdAdapter.write, write]
    split
    · exact ⟨none, rfl⟩
    · exact SafeFdAdapter.write_returns a.adapter random h

end LossyFdAdapter

end Sponge
