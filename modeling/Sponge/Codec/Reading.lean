import Sponge.Parser

/-!
# What Parsers Consume

Two views of an action on a `NetParser`.

- `Parses x bytes v`: on a buffer that starts with `bytes` the action consumes exactly these
  and returns `v`.  Unparsed integers are parsed back, and the relation composes along a
  sequence of actions, so the round trip of a record follows from those of its fields.
- `Asks b n m x Q`: of the bytes `b` the parser has asked for `n` before the action and for `m`
  after it.  Either they were there, and then the rest of `b` is left and the result satisfies
  `Q`, or the parser is in its error state, in which it stays.
-/

namespace Sponge

namespace NetParser

variable {α β : Type}

/-! ## §1 Parsing what was written -/

/-- The action consumes `bytes` and returns `v`. -/
def Parses (x : StateM NetParser α) (bytes : Bytes) (v : α) : Prop :=
  ∀ rest, x { buffer := bytes ++ rest } = (v, { buffer := rest })

theorem Parses.pure (v : α) : Parses (pure v) [] v :=
  fun _ => rfl

/-- The actions of a sequence consume their bytes one after the other. -/
theorem Parses.bind {x : StateM NetParser α} {f : α → StateM NetParser β} {a b : Bytes} {v : α}
    {w : β} (hx : Parses x a v) (hf : Parses (f v) b w) : Parses (x >>= f) (a ++ b) w := by
  intro rest
  show f (x _).1 (x _).2 = _
  rw [List.append_assoc, hx]
  exact hf rest

/-- A last action that consumes nothing. -/
theorem Parses.bind_nil {x : StateM NetParser α} {f : α → StateM NetParser β} {a : Bytes} {v : α}
    {w : β} (hx : Parses x a v) (hf : Parses (f v) [] w) : Parses (x >>= f) a w := by
  have h := hx.bind hf
  rwa [List.append_nil] at h

/-- An integer is parsed back from the bytes that denote it. -/
theorem parses_parseInt {len n : ℕ} (h : n < 256 ^ len) :
    Parses (parseInt len) (BigEndian.bytes len n) n := by
  intro rest
  have hlen : ¬ (BigEndian.bytes len n ++ rest).length < len := by
    simp
  simp only [parseInt, checkSize, if_neg hlen, ne_eq, not_true_eq_false, if_false]
  rw [List.take_left' (BigEndian.length_bytes len n),
    List.drop_left' (BigEndian.length_bytes len n), BigEndian.value_bytes_of_lt h]

/-- An integer that is parsed into a machine type. -/
private theorem parses_ofNat {len n : ℕ} (h : n < 256 ^ len) (f : ℕ → α) :
    Parses (do return f (← parseInt len)) (BigEndian.bytes len n) (f n) := by
  exact (parses_parseInt h).bind_nil (.pure (f n))

theorem parses_u8 (v : UInt8) : Parses u8 (BigEndian.bytes 1 v.toNat) v := by
  have h := parses_ofNat (show v.toNat < 256 ^ 1 from v.toNat_lt) UInt8.ofNat
  rwa [UInt8.ofNat_toNat] at h

theorem parses_u16 (v : UInt16) : Parses u16 (BigEndian.bytes 2 v.toNat) v := by
  have h := parses_ofNat (show v.toNat < 256 ^ 2 from v.toNat_lt) UInt16.ofNat
  rwa [UInt16.ofNat_toNat] at h

theorem parses_u32 (v : UInt32) : Parses u32 (BigEndian.bytes 4 v.toNat) v := by
  have h := parses_ofNat (show v.toNat < 256 ^ 4 from v.toNat_lt) UInt32.ofNat
  rwa [UInt32.ofNat_toNat] at h

/-- Options are skipped, whatever they are. -/
theorem parses_removePrefix {options : Bytes} {n : ℕ} (hn : options.length = n) :
    Parses (removePrefix n) options () := by
  subst hn
  intro rest
  have hlen : ¬ (options ++ rest).length < options.length := by
    simp
  simp only [removePrefix, checkSize, if_neg hlen, ne_eq, not_true_eq_false, if_false,
    List.drop_left]

theorem parses_getError : Parses getError [] .NoError :=
  fun _ => rfl

/-! ## §2 Parsing arbitrary bytes -/

/-- The parser has asked for `n` of the bytes `b`. -/
def Reads (b : Bytes) (n : ℕ) (p : NetParser) : Prop :=
  (n ≤ b.length ∧ p = { buffer := b.drop n }) ∨ (b.length < n ∧ p.error = .PacketTooShort)

/-- The number in the `len` bytes of `b` from `pos` on. -/
def fieldAt (b : Bytes) (pos len : ℕ) : ℕ :=
  BigEndian.value ((b.drop pos).take len)

theorem fieldAt_lt (b : Bytes) (pos len : ℕ) : fieldAt b pos len < 256 ^ len := by
  refine (BigEndian.value_lt _).trans_le (Nat.pow_le_pow_right (by decide) ?_)
  exact List.length_take_le len _

section Reads

variable {b : Bytes} {n : ℕ} {p : NetParser}

theorem Reads.start (b : Bytes) : Reads b 0 { buffer := b } :=
  .inl ⟨Nat.zero_le _, rfl⟩

/-- In the error state nothing is consumed and the error stays. -/
theorem checkSize_error (h : p.error = .PacketTooShort) (len : ℕ) :
    (p.checkSize len).error = .PacketTooShort := by
  unfold checkSize
  split
  · rfl
  · exact h

/-- The size check of a parser that has read `n` bytes. -/
theorem Reads.checkSize (h : Reads b n p) (len : ℕ) :
    (n + len ≤ b.length ∧ p.checkSize len = { buffer := b.drop n }) ∨
      (b.length < n + len ∧ (p.checkSize len).error = .PacketTooShort) := by
  rcases h with ⟨hle, rfl⟩ | ⟨hlt, herror⟩
  · unfold NetParser.checkSize
    split
    · rename_i hshort
      rw [List.length_drop] at hshort
      exact .inr ⟨by omega, rfl⟩
    · rename_i hlong
      rw [List.length_drop] at hlong
      exact .inl ⟨by omega, rfl⟩
  · exact .inr ⟨by omega, checkSize_error herror len⟩

/-- The parser is in its error state exactly when it was asked for too much. -/
theorem Reads.error_iff (h : Reads b n p) : p.error = .NoError ↔ n ≤ b.length := by
  rcases h with ⟨hle, rfl⟩ | ⟨hlt, herror⟩
  · exact iff_of_true rfl hle
  · rw [herror]
    exact iff_of_false (by decide) (by omega)

theorem Reads.error_eq (h : Reads b n p) (hlt : b.length < n) : p.error = .PacketTooShort := by
  rcases h with ⟨hle, -⟩ | ⟨-, herror⟩
  · omega
  · exact herror

theorem Reads.buffer_eq (h : Reads b n p) (hle : n ≤ b.length) : p.buffer = b.drop n := by
  rcases h with ⟨-, rfl⟩ | ⟨hlt, -⟩
  · rfl
  · omega

end Reads

/-- A parser that has read `n` bytes has read `m` after the action, and the result is as `Q`
    says if they were there. -/
def Asks (b : Bytes) (n m : ℕ) (x : StateM NetParser α) (Q : α → Prop) : Prop :=
  ∀ p, Reads b n p → Reads b m (x p).2 ∧ (m ≤ b.length → Q (x p).1)

section Asks

variable {b : Bytes} {n m k : ℕ}

theorem Asks.pure {v : α} {Q : α → Prop} (h : n ≤ b.length → Q v) : Asks b n n (pure v) Q :=
  fun _ hp => ⟨hp, h⟩

/-- From the start on there is only one run. -/
theorem Asks.run {x : StateM NetParser α} {Q : α → Prop} (hx : Asks b 0 m x Q) :
    Asks b 0 m x (fun v => Q v ∧ v = (x { buffer := b }).1) := by
  intro p hp
  obtain ⟨-, rfl⟩ | ⟨hlt, -⟩ := hp
  · obtain ⟨hreads, hvalue⟩ := hx _ (Reads.start b)
    exact ⟨hreads, fun hle => ⟨hvalue hle, rfl⟩⟩
  · omega

/-- Along a sequence of actions the later ones may rely on the results of the earlier ones. -/
theorem Asks.bind {x : StateM NetParser α} {f : α → StateM NetParser β} {Q : α → Prop}
    {R : β → Prop} (hx : Asks b n m x Q)
    (hf : ∀ v, (m ≤ b.length → Q v) → Asks b m k (f v) R) : Asks b n k (x >>= f) R := by
  intro p hp
  obtain ⟨hreads, hvalue⟩ := hx p hp
  exact hf _ hvalue _ hreads

/-- A parser that has asked for too much stays in its error state, whatever it is asked for. -/
theorem Asks.of_short {x : StateM NetParser α} {Q R : α → Prop} (hx : Asks b n m x Q)
    (hm : b.length < m) (hk : b.length < k) : Asks b n k x R := by
  intro p hp
  have herror := (hx p hp).1.error_eq hm
  exact ⟨.inr ⟨hk, herror⟩, fun hle => absurd hle (by omega)⟩

theorem asks_parseInt (len : ℕ) :
    Asks b n (n + len) (parseInt len) (fun v => v = fieldAt b n len) := by
  intro p hp
  rcases hp.checkSize len with ⟨hle, hcheck⟩ | ⟨hlt, herror⟩
  · simp only [NetParser.parseInt, hcheck, ne_eq, not_true_eq_false, if_false]
    exact ⟨.inl ⟨hle, by rw [List.drop_drop]⟩, fun _ => rfl⟩
  · have hfail : ((p.checkSize len).error ≠ .NoError) := by rw [herror]; decide
    simp only [NetParser.parseInt, if_pos hfail]
    exact ⟨.inr ⟨hlt, herror⟩, fun hle => absurd hle (by omega)⟩

theorem asks_u8 : Asks b n (n + 1) u8 (fun v => v.toNat = fieldAt b n 1) := by
  refine (asks_parseInt 1).bind fun v hv => .pure fun hle => ?_
  rw [hv hle, UInt8.toNat_ofNat']
  exact Nat.mod_eq_of_lt (fieldAt_lt b n 1)

theorem asks_u16 : Asks b n (n + 2) u16 (fun v => v.toNat = fieldAt b n 2) := by
  refine (asks_parseInt 2).bind fun v hv => .pure fun hle => ?_
  rw [hv hle, UInt16.toNat_ofNat']
  exact Nat.mod_eq_of_lt (fieldAt_lt b n 2)

theorem asks_u32 : Asks b n (n + 4) u32 (fun v => v.toNat = fieldAt b n 4) := by
  refine (asks_parseInt 4).bind fun v hv => .pure fun hle => ?_
  rw [hv hle, UInt32.toNat_ofNat']
  exact Nat.mod_eq_of_lt (fieldAt_lt b n 4)

theorem asks_removePrefix (len : ℕ) :
    Asks b n (n + len) (removePrefix len) (fun _ => True) := by
  intro p hp
  refine ⟨?_, fun _ => trivial⟩
  rcases hp.checkSize len with ⟨hle, hcheck⟩ | ⟨hlt, herror⟩
  · simp only [NetParser.removePrefix, hcheck, ne_eq, not_true_eq_false, if_false]
    exact .inl ⟨hle, by rw [List.drop_drop]⟩
  · have hfail : ((p.checkSize len).error ≠ .NoError) := by rw [herror]; decide
    simp only [NetParser.removePrefix, if_pos hfail]
    exact .inr ⟨hlt, herror⟩

/-- What is left of the bytes. -/
theorem asks_get : Asks b n n get (fun p => p.buffer = b.drop n) :=
  fun _ hp => ⟨hp, hp.buffer_eq⟩

theorem asks_getError : Asks b n n getError (fun error => error = .NoError) :=
  fun _ hp => ⟨hp, hp.error_iff.mpr⟩

end Asks

end NetParser

end Sponge
