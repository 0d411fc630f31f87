import Sponge.UdpTcpdump

/-!
# Where the Dissector Stays inside the Packet

`process_ipv4_ipv6` should read no byte behind the packet and return no offset behind it.  Its
length checks do not see to that: the branch for IPv4 checks the length that the header claims,
not the length of the fields that it reads, and neither branch checks that the UDP header fits,
which the returned offset skips.

* **Headers** (`Ipv4Fits`, `HeaderChain`, `Ipv6Fits`): what the bytes of a packet must be like,
  without reference to the function.
* **Branches** (`processIpv4_within_iff`, `processIpv6_within_iff`): each branch stays inside
  the packet exactly if they are.  The loop over the extension headers follows the chain that
  they form, and always ends.
* **The function** (`staysInside_iff`).
-/

namespace Sponge

namespace UdpTcpdump

/-- A captured packet.  Its length is passed on as an `int`. -/
structure CapturedPacket where
  data : Bytes
  length_lt : data.length < 2 ^ 31

/-! ## §1 What should hold -/

/-- An offset that is returned lies within the packet, so the length of the payload that `main`
    computes is the number of bytes behind it, whatever the link-layer header. -/
def Dissection.Within (len : ℕ) (r : Dissection) : Prop :=
  ∀ offset srcAddr dstAddr, r = .udp offset srcAddr dstAddr →
    offset ≤ len ∧ ∀ hdrOff, hdrOff + len < 2 ^ 32 →
      payloadLen (hdrOff + len) hdrOff offset + offset = len

/-- The function ends without a fault, and what it returns lies within the packet. -/
def StaysInside (p : CapturedPacket) : Prop :=
  ∃ rounds r, processIpv4Ipv6 rounds p.data = some (.ok r) ∧ r.Within p.data.length

@[simp] theorem within_malformed (len : ℕ) (cerr : String) :
    (Dissection.malformed cerr).Within len :=
  nofun

@[simp] theorem within_udp_iff {len offset : ℕ} {srcAddr dstAddr : Bytes} :
    (Dissection.udp offset srcAddr dstAddr).Within len ↔ offset ≤ len := by
  constructor
  · intro h
    exact (h _ _ _ rfl).1
  · rintro hle _ _ _ ⟨⟩
    refine ⟨hle, fun hdrOff hcaplen => ?_⟩
    have hpayloadOff : sizeT (hdrOff + offset) = hdrOff + offset := Nat.mod_eq_of_lt (by omega)
    show sizeTSub (hdrOff + len) (sizeT (hdrOff + offset)) + offset = len
    rw [hpayloadOff, sizeTSub_of_le (by omega) (by omega)]
    omega

/-! ## §2 Reads -/

section Reads

variable {data : Bytes} {index count n : ℕ}

theorem byteAt_of_some {b : Byte} (h : data[index]? = some b) : byteAt data index = .ok b := by
  rw [byteAt, h]

theorem byteAt_of_le (h : data.length ≤ index) :
    byteAt data index = .error (.outOfBounds index) := by
  rw [byteAt, List.getElem?_eq_none h]

theorem bytesAt_of_le (h : index + count ≤ data.length) :
    bytesAt data index count = .ok ((data.drop index).take count) :=
  if_pos h

theorem bytesAt_of_lt (h : data.length < index + count) :
    bytesAt data index count = .error (.outOfBounds data.length) :=
  if_neg (not_le.mpr h)

theorem int_of_lt (h : n < 2 ^ 31) : int n = .ok n :=
  if_pos h

theorem int_of_le (h : 2 ^ 31 ≤ n) : int n = .error .overflow :=
  if_neg (not_lt.mpr h)

end Reads

/-! ## §3 IPv4 -/

/-- The length of the header that its first byte claims. -/
def headerLength (first : Byte) : ℕ :=
  (first &&& 0x0f).toNat * 4

/-- A header that the branch for IPv4 can deal with.  It is longer than the packet, which is
    noticed; or its protocol is there and is not UDP; or its addresses and the UDP header behind
    it are there too. -/
def Ipv4Fits (data : Bytes) (first : Byte) : Prop :=
  data.length < headerLength first ∨
    10 ≤ data.length ∧ (data[9]? ≠ some 0x11 ∨
      20 ≤ data.length ∧ headerLength first + 8 ≤ data.length)

theorem headerLength_le (first : Byte) : headerLength first ≤ 60 := by
  have hand : (first &&& 0x0f).toNat ≤ 15 := by
    rw [UInt8.toNat_and]
    exact Nat.and_le_right
  unfold headerLength
  omega

theorem processIpv4_eq (data : Bytes) (first : Byte) : processIpv4 data first =
    if data.length < headerLength first then .ok (.malformed "")
    else byteAt data 9 >>= fun proto =>
      if proto ≠ 0x11 then .ok (.malformed "Not UDP; ")
      else bytesAt data 12 4 >>= fun srcAddr => bytesAt data 16 4 >>= fun dstAddr =>
        int (headerLength first + 8) >>= fun offset => .ok (.udp offset srcAddr dstAddr) :=
  rfl

theorem processIpv4_within_iff (data : Bytes) (first : Byte) :
    (∃ r, processIpv4 data first = .ok r ∧ r.Within data.length) ↔ Ipv4Fits data first := by
  have hoff := headerLength_le first
  rw [processIpv4_eq, Ipv4Fits]
  by_cases hshort : data.length < headerLength first
  · rw [if_pos hshort]
    exact iff_of_true ⟨_, rfl, within_malformed _ _⟩ (.inl hshort)
  rw [if_neg hshort, or_iff_right hshort]
  rcases hproto : data[9]? with _ | proto
  · have hlen := List.getElem?_eq_none_iff.mp hproto
    rw [byteAt_of_le hlen]
    exact iff_of_false nofun fun h => by omega
  have hlen : 9 < data.length := (List.getElem?_eq_some_iff.mp hproto).1
  rw [byteAt_of_some hproto, Loop.ok_bind, and_iff_right (by omega : 10 ≤ data.length)]
  by_cases hudp : proto ≠ 0x11
  · rw [if_pos hudp]
    exact iff_of_true ⟨_, rfl, within_malformed _ _⟩ (.inl fun h => hudp (Option.some.inj h))
  obtain rfl := not_not.mp hudp
  rw [if_neg hudp, or_iff_right (fun h => h rfl)]
  -- the source address may be there when the destination address is not
  by_cases hsrc : data.length < 16
  · rw [bytesAt_of_lt hsrc, Loop.error_bind]
    exact iff_of_false nofun fun h => by omega
  rw [bytesAt_of_le (by omega : 12 + 4 ≤ data.length), Loop.ok_bind]
  by_cases hdst : data.length < 20
  · rw [bytesAt_of_lt hdst, Loop.error_bind]
    exact iff_of_false nofun fun h => by omega
  rw [bytesAt_of_le (by omega : 16 + 4 ≤ data.length), Loop.ok_bind, int_of_lt (by omega),
    Loop.ok_bind, and_iff_right (by omega : 20 ≤ data.length)]
  simp

/-! ## §4 IPv6 -/

/-- The chain of headers: a header of the kind `nxt` begins at `offset`.  The fixed header names
    the first, and an extension header whose first two bytes are there names the one behind it. -/
inductive HeaderChain (data : Bytes) : Byte → ℕ → Prop where
  | fixed {nxt : Byte} (h : data[6]? = some nxt) : HeaderChain data nxt 40
  | extension {nxt nxt' extra : Byte} {offset : ℕ} (hchain : HeaderChain data nxt offset)
      (hkind : nxt = 0 ∨ nxt = 43 ∨ nxt = 60) (hfits : offset + 2 ≤ data.length)
      (hnxt : data[offset]? = some nxt') (hextra : data[offset + 1]? = some extra) :
      HeaderChain data nxt' (offset + 8 * (1 + extra.toNat))

/-- Every header of the chain begins where an `int` can say it, and a UDP header is there in full
    if it is there at all. -/
def ChainFits (data : Bytes) : Prop :=
  ∀ nxt offset, HeaderChain data nxt offset →
    offset + 2 < 2 ^ 31 ∧ (nxt = 0x11 → offset + 2 ≤ data.length → offset + 8 ≤ data.length)

/-- A packet that the branch for IPv6 can deal with.  It is too short, which is noticed, or the
    chain of its headers fits. -/
def Ipv6Fits (data : Bytes) : Prop :=
  data.length < 42 ∨ ChainFits data

section Loop

variable {data : Bytes} {nxt : Byte} {offset : ℕ}

/-- Behind the loop the addresses are there, and the UDP header decides. -/
theorem finishIpv6_within_iff (hlen : 42 ≤ data.length) (hlt : data.length < 2 ^ 31) :
    (∃ r, finishIpv6 data offset = .ok r ∧ r.Within data.length) ↔ offset + 8 ≤ data.length := by
  rw [finishIpv6, inet6Addr, inet6Addr, bytesAt_of_le (by omega), Loop.ok_bind,
    bytesAt_of_le (by omega), Loop.ok_bind]
  by_cases hint : offset + 8 < 2 ^ 31
  · rw [int_of_lt hint, Loop.ok_bind]
    simp [pure, Except.pure]
  · rw [int_of_le (by omega), Loop.error_bind]
    exact iff_of_false nofun fun h => by omega

theorem extensionRound_udp :
    extensionRound data ⟨0x11, offset⟩ = .exit (finishIpv6 data offset) :=
  if_pos rfl

theorem extensionRound_other (hudp : nxt ≠ 0x11) (hkind : ¬ (nxt = 0 ∨ nxt = 43 ∨ nxt = 60)) :
    extensionRound data ⟨nxt, offset⟩ = .exit (.ok (.malformed "Not UDP or fragmented; ")) := by
  rw [extensionRound, if_neg hudp, if_pos (by simpa [not_or] using hkind)]

section Extension

variable {nxt' extra : Byte} (hnxt : data[offset]? = some nxt')
  (hextra : data[offset + 1]? = some extra)
include hnxt hextra

theorem skipExtension_eq : skipExtension data offset =
    if offset + 8 * (1 + extra.toNat) + 2 < 2 ^ 31 then
      .ok (⟨nxt', offset + 8 * (1 + extra.toNat)⟩, offset + 8 * (1 + extra.toNat) + 2)
    else .error .overflow := by
  rw [skipExtension, byteAt_of_some hnxt, Loop.ok_bind, byteAt_of_some hextra, Loop.ok_bind]
  by_cases hneeded : offset + 8 * (1 + extra.toNat) + 2 < 2 ^ 31
  · rw [int_of_lt (by omega), Loop.ok_bind, int_of_lt hneeded, Loop.ok_bind, if_pos hneeded]
    rfl
  · rw [if_neg hneeded]
    by_cases hoffset : offset + 8 * (1 + extra.toNat) < 2 ^ 31
    · rw [int_of_lt hoffset, Loop.ok_bind, int_of_le (by omega), Loop.error_bind]
    · rw [int_of_le (by omega), Loop.error_bind]

/-- The step over an extension header whose first two bytes are there. -/
theorem extensionRound_extension (hkind : nxt = 0 ∨ nxt = 43 ∨ nxt = 60) :
    extensionRound data ⟨nxt, offset⟩ =
      if offset + 8 * (1 + extra.toNat) + 2 < 2 ^ 31 then
        if data.length < offset + 8 * (1 + extra.toNat) + 2 then .exit (.ok (.malformed ""))
        else .next ⟨nxt', offset + 8 * (1 + extra.toNat)⟩
      else .exit (.error .overflow) := by
  have hudp : nxt ≠ 0x11 := by
    rcases hkind with rfl | rfl | rfl <;> decide
  have hknown : ¬ (nxt ≠ 0 ∧ nxt ≠ 43 ∧ nxt ≠ 60) := by
    rcases hkind with rfl | rfl | rfl <;> simp
  rw [extensionRound, if_neg hudp, if_neg hknown, skipExtension_eq hnxt hextra]
  by_cases hneeded : offset + 8 * (1 + extra.toNat) + 2 < 2 ^ 31
  · rw [if_pos hneeded, if_pos hneeded]
  · rw [if_neg hneeded, if_neg hneeded]

end Extension

/-- The first two bytes of a header that is there. -/
theorem exists_extension (h : offset + 2 ≤ data.length) :
    ∃ nxt' extra, data[offset]? = some nxt' ∧ data[offset + 1]? = some extra :=
  ⟨_, _, List.getElem?_eq_getElem (by omega), List.getElem?_eq_getElem (by omega)⟩

/-- The cursor stands at a header of the chain, and its first two bytes are there. -/
def AtHeader (data : Bytes) (c : Cursor) : Prop :=
  HeaderChain data c.nxt c.dataOffset ∧ c.dataOffset + 2 ≤ data.length

/-- One round at a header of a chain that fits: it ends within the packet or moves on. -/
theorem AtHeader.round {c : Cursor} (hlen : 42 ≤ data.length) (hlt : data.length < 2 ^ 31)
    (hfits : ChainFits data) (h : AtHeader data c) :
    (∃ r, extensionRound data c = .exit (.ok r) ∧ r.Within data.length) ∨
      ∃ c', extensionRound data c = .next c' ∧ AtHeader data c' ∧
        c.dataOffset < c'.dataOffset := by
  obtain ⟨nxt, offset⟩ := c
  obtain ⟨hchain, hthere⟩ := h
  dsimp only at hchain hthere
  by_cases hudp : nxt = 0x11
  · subst hudp
    obtain ⟨r, hr, hwithin⟩ :=
      (finishIpv6_within_iff hlen hlt).mpr ((hfits _ _ hchain).2 rfl hthere)
    exact .inl ⟨r, by rw [extensionRound_udp, hr], hwithin⟩
  by_cases hkind : nxt = 0 ∨ nxt = 43 ∨ nxt = 60
  · obtain ⟨nxt', extra, hnxt', hextra⟩ := exists_extension hthere
    have hlink := hchain.extension hkind hthere hnxt' hextra
    rw [extensionRound_extension hnxt' hextra hkind, if_pos (hfits _ _ hlink).1]
    by_cases hbehind : data.length < offset + 8 * (1 + extra.toNat) + 2
    · exact .inl ⟨_, if_pos hbehind, within_malformed _ _⟩
    · exact .inr ⟨_, if_neg hbehind, ⟨hlink, not_lt.mp hbehind⟩, by dsimp only; omega⟩
  · exact .inl ⟨_, extensionRound_other hudp hkind, within_malformed _ _⟩

/-- The loop ends within the packet when the chain does. -/
theorem iterate_extensionRound (hlen : 42 ≤ data.length) (hlt : data.length < 2 ^ 31)
    (hfits : ChainFits data) (hnxt : data[6]? = some nxt) :
    ∃ outcome, Loop.iterate (extensionRound data) (data.length + 1) ⟨nxt, 40⟩ = some outcome ∧
      ∃ r, outcome = .ok r ∧ r.Within data.length := by
  have hexit : ∀ c outcome, AtHeader data c → extensionRound data c = .exit outcome →
      ∃ r, outcome = .ok r ∧ r.Within data.length := by
    intro c outcome hc hround
    rcases hc.round hlen hlt hfits with ⟨r, hr, hwithin⟩ | ⟨c', hnext, -⟩
    · rw [hr] at hround
      cases hround
      exact ⟨r, rfl, hwithin⟩
    · rw [hnext] at hround
      cases hround
  have hnext : ∀ c c', AtHeader data c → extensionRound data c = .next c' →
      AtHeader data c' ∧ data.length - c'.dataOffset < data.length - c.dataOffset := by
    intro c c' hc hround
    rcases hc.round hlen hlt hfits with ⟨r, hr, -⟩ | ⟨c'', hnext, hc'', hmore⟩
    · rw [hr] at hround
      cases hround
    · rw [hnext] at hround
      cases hround
      have hthere := hc.2
      exact ⟨hc'', by omega⟩
  exact Loop.iterate_spec (fun c : Cursor => data.length - c.dataOffset) hexit hnext
    (data.length + 1) ⟨nxt, 40⟩ ⟨.fixed hnxt, by dsimp only; omega⟩ (by dsimp only; omega)

/-- A loop that ends well has passed every header of the chain. -/
theorem HeaderChain.visited {rounds : ℕ} {first : Byte} {r : Dissection}
    (hfirst : data[6]? = some first)
    (hrun : Loop.iterate (extensionRound data) rounds ⟨first, 40⟩ = some (.ok r))
    (hchain : HeaderChain data nxt offset) :
    offset + 2 < 2 ^ 31 ∧ (offset + 2 ≤ data.length →
      ∃ rounds, Loop.iterate (extensionRound data) rounds ⟨nxt, offset⟩ = some (.ok r)) := by
  induction hchain with
  | fixed h =>
    obtain rfl : first = _ := Option.some.inj (hfirst.symm.trans h)
    exact ⟨by omega, fun _ => ⟨rounds, hrun⟩⟩
  | @extension nxt nxt' extra offset hchain hkind hthere hnxt hextra ih =>
    obtain ⟨rounds, hrounds⟩ := ih.2 hthere
    cases rounds with
    | zero => cases hrounds
    | succ rounds =>
      rw [Loop.iterate, extensionRound_extension hnxt hextra hkind] at hrounds
      by_cases hint : offset + 8 * (1 + extra.toNat) + 2 < 2 ^ 31
      · rw [if_pos hint] at hrounds
        refine ⟨hint, fun hthere' => ?_⟩
        rw [if_neg (not_lt.mpr hthere')] at hrounds
        exact ⟨rounds, hrounds⟩
      · rw [if_neg hint] at hrounds
        cases hrounds

end Loop

theorem processIpv6_within_iff {data : Bytes} (hlt : data.length < 2 ^ 31) :
    (∃ rounds r, processIpv6 rounds data = some (.ok r) ∧ r.Within data.length) ↔
      Ipv6Fits data := by
  rw [Ipv6Fits]
  by_cases hshort : data.length < 42
  · exact iff_of_true ⟨0, _, if_pos hshort, within_malformed _ _⟩ (.inl hshort)
  rw [or_iff_right hshort]
  obtain ⟨first, hfirst⟩ : ∃ first, data[6]? = some first :=
    ⟨_, List.getElem?_eq_getElem (by omega)⟩
  have hrun : ∀ rounds, processIpv6 rounds data =
      Loop.iterate (extensionRound data) rounds ⟨first, 40⟩ := by
    intro rounds
    rw [processIpv6, if_neg hshort, byteAt_of_some hfirst]
  constructor
  · rintro ⟨rounds, r, hr, hwithin⟩ nxt offset hchain
    rw [hrun] at hr
    obtain ⟨hint, hvisited⟩ := hchain.visited hfirst hr
    refine ⟨hint, ?_⟩
    rintro rfl hthere
    obtain ⟨rounds', hr'⟩ := hvisited hthere
    cases rounds' with
    | zero => cases hr'
    | succ rounds' =>
      rw [Loop.iterate, extensionRound_udp] at hr'
      exact (finishIpv6_within_iff (by omega) hlt).mp ⟨r, Option.some.inj hr', hwithin⟩
  · intro hfits
    obtain ⟨_, hr, r, rfl, hwithin⟩ :=
      iterate_extensionRound (by omega) hlt hfits hfirst
    exact ⟨data.length + 1, r, by rw [hrun, hr], hwithin⟩

/-! ## §5 The function -/

/-- A packet that the function can deal with. -/
def PacketFits (data : Bytes) : Prop :=
  ∀ first, data[0]? = some first →
    (first &&& 0xf0 = 0x40 → Ipv4Fits data first) ∧ (first &&& 0xf0 = 0x60 → Ipv6Fits data)

theorem processIpv4Ipv6_within_iff {data : Bytes} (hlt : data.length < 2 ^ 31) :
    (∃ rounds r, processIpv4Ipv6 rounds data = some (.ok r) ∧ r.Within data.length) ↔
      PacketFits data := by
  rw [PacketFits]
  rcases hfirst : data[0]? with _ | first
  · have hempty : data.length < 1 := by
      have := List.getElem?_eq_none_iff.mp hfirst
      omega
    exact iff_of_true ⟨0, _, if_pos hempty, within_malformed _ _⟩ nofun
  have hlen : ¬ data.length < 1 := by
    have := (List.getElem?_eq_some_iff.mp hfirst).1
    omega
  have hrun : ∀ rounds, processIpv4Ipv6 rounds data =
      if first &&& 0xf0 = 0x40 then some (processIpv4 data first)
      else if first &&& 0xf0 = 0x60 then processIpv6 rounds data
      else some (.ok (.malformed "")) := by
    intro rounds
    rw [processIpv4Ipv6, if_neg hlen, byteAt_of_some hfirst]
  simp only [hrun, Option.some.injEq, forall_eq']
  by_cases hfour : first &&& 0xf0 = 0x40
  · have hsix : first &&& 0xf0 ≠ 0x60 := by
      rw [hfour]
      decide
    simp only [if_pos hfour, Option.some.injEq]
    constructor
    · rintro ⟨-, hwithin⟩
      exact ⟨fun _ => (processIpv4_within_iff data first).mp hwithin, fun h => absurd h hsix⟩
    · rintro ⟨hfits, -⟩
      exact ⟨0, (processIpv4_within_iff data first).mpr (hfits hfour)⟩
  simp only [if_neg hfour]
  by_cases hsix : first &&& 0xf0 = 0x60
  · simp only [if_pos hsix]
    constructor
    · intro hwithin
      exact ⟨fun h => absurd h hfour, fun _ => (processIpv6_within_iff hlt).mp hwithin⟩
    · rintro ⟨-, hfits⟩
      exact (processIpv6_within_iff hlt).mpr (hfits hsix)
  · simp only [if_neg hsix]
    exact iff_of_true ⟨0, _, rfl, within_malformed _ _⟩
      ⟨fun h => absurd h hfour, fun h => absurd h hsix⟩

/-- **Where the dissector stays inside the packet.**  It ends without reading past the end and
    returns no offset past it exactly if the headers of the packet fit. -/
theorem staysInside_iff (p : CapturedPacket) : StaysInside p ↔ PacketFits p.data :=
  processIpv4Ipv6_within_iff p.length_lt

/-- A captured IPv4 header that announces UDP, and nothing behind it. -/
def bareHeader : CapturedPacket where
  data := [0x45, 0, 0, 28, 0, 0, 0, 0, 64, 0x11, 0, 0, 10, 0, 0, 1, 10, 0, 0, 2]
  length_lt := by decide

/-- The offset that is returned for it lies eight bytes behind its end, and the length of the
    payload that is computed from it is near the top of `size_t`. -/
theorem not_staysInside_bareHeader :
    processIpv4Ipv6 0 bareHeader.data = some (.ok (.udp 28 [10, 0, 0, 1] [10, 0, 0, 2])) ∧
      bareHeader.data.length = 20 ∧ payloadLen 20 0 28 = 2 ^ 64 - 8 ∧
      ¬ StaysInside bareHeader := by
  refine ⟨by decide, by decide, by decide, fun h => ?_⟩
  have hfits := ((processIpv4Ipv6_within_iff bareHeader.length_lt).mp h 0x45 rfl).1 (by decide)
  revert hfits
  rw [Ipv4Fits]
  decide

end UdpTcpdump

end Sponge
