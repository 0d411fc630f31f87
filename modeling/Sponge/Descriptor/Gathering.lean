import Sponge.FileDescriptor

/-!
# Gathered Writes

`FileDescriptor::write` hands a list of views to the kernel, call after call, while the kernel
takes as much of each offer as it likes.  With `write_all` nothing should be lost or repeated.

* **Views** (`removeFront_append`, `removesPrefixes`): removing the first `n` bytes of the
  list, wherever in the views they end.
* **One call** (`writeOnce_eq_ok_iff`, `writeOnce_of_lt`): what a call that does not throw has
  done to the loop.
* **The loop** (`writesAll_of`, `handedOver_of_ok`): from a condition on the kernel and the
  views to the result, and back.
* **Too many views** (`write_of_count_zero`): a list of which no kernel is offered anything.

Three conversions stand between the source and its purpose.  `SystemCall` takes the result of
`writev` as an `int`, `writev` takes the number of `iovec`s as an `int`, and `write` compares with
the size as a `ssize_t`.  `writesAll_iff` says that the write is right exactly where none of them
changes a value that matters.
-/

namespace Sponge

/-! ## §1 Views -/

namespace BufferViewList

/-- `size()` counts the bytes, modulo the range of `size_t`. -/
theorem size_eq (l : BufferViewList) : l.size = l.views.flatten.length % 2 ^ 64 := by
  suffices hfold : ∀ (views : List Bytes) (ret : ℕ),
      views.foldl (fun ret buf => sizeT (ret + buf.length)) (sizeT ret) =
        sizeT (ret + views.flatten.length) by
    simpa [size, sizeT] using hfold l.views 0
  intro views
  induction views with
  | nil => simp
  | cons front views ih =>
    intro ret
    have hret : sizeT (sizeT ret + front.length) = sizeT (ret + front.length) := by
      simp [sizeT]
    rw [List.foldl_cons, hret, ih, List.flatten_cons, List.length_append, Nat.add_assoc]

/-- Removing bytes from the front of the first views leaves the others alone. -/
theorem removeFront_append (A B : List Bytes) : ∀ n ≤ A.flatten.length, ∃ A',
    removeFront n (A ++ B) = .ok (A' ++ B) ∧ A'.flatten = A.flatten.drop n ∧
      A'.length ≤ A.length := by
  induction A with
  | nil =>
    intro n hn
    obtain rfl : n = 0 := by simpa using hn
    exact ⟨[], by simp [removeFront], rfl, le_rfl⟩
  | cons front A ih =>
    intro n hn
    rw [List.flatten_cons, List.length_append] at hn
    match n with
    | 0 => exact ⟨front :: A, by simp [removeFront], rfl, le_rfl⟩
    | n + 1 =>
      rw [List.cons_append, removeFront, List.flatten_cons, List.drop_append]
      by_cases hinside : n + 1 < front.length
      · have hrest : n + 1 - front.length = 0 := by omega
        exact ⟨front.drop (n + 1) :: A, by rw [if_pos hinside]; rfl, by simp [hrest], by simp⟩
      · obtain ⟨A', hremove, hflatten, hlength⟩ := ih (n + 1 - front.length) (by omega)
        have hfront : front.drop (n + 1) = [] := List.drop_eq_nil_of_le (by omega)
        exact ⟨A', by rw [if_neg hinside, hremove], by rw [hflatten, hfront, List.nil_append],
          by rw [List.length_cons]; omega⟩

theorem removeFront_error (views : List Bytes) : ∀ n, views.flatten.length < n →
    removeFront n views = .error .outOfRange := by
  induction views with
  | nil =>
    intro n hn
    match n with
    | 0 => omega
    | n + 1 => rfl
  | cons front views ih =>
    intro n hn
    rw [List.flatten_cons, List.length_append] at hn
    match n with
    | 0 => omega
    | n + 1 => rw [removeFront, if_neg (by omega), ih _ (by omega)]

theorem removeFront_ok_le {n : ℕ} {views rest : List Bytes} (h : removeFront n views = .ok rest) :
    n ≤ views.flatten.length := by
  by_contra hlt
  rw [removeFront_error views n (by omega)] at h
  cases h

/-- `remove_prefix` takes the first `n` bytes of the string that the list stands for, up to its
    size, and throws beyond it. -/
def RemovesPrefixes (l : BufferViewList) : Prop :=
  ∀ n, (n ≤ l.size → ∃ rest, l.removePrefix n = .ok rest ∧
      rest.views.flatten = l.views.flatten.drop n) ∧
    (l.removePrefix n = .error .outOfRange ↔ l.size < n)

theorem removesPrefixes {l : BufferViewList} (h : l.views.flatten.length < 2 ^ 64) :
    l.RemovesPrefixes := by
  intro n
  rw [size_eq, Nat.mod_eq_of_lt h]
  have hok : n ≤ l.views.flatten.length → ∃ rest, l.removePrefix n = .ok rest ∧
      rest.views.flatten = l.views.flatten.drop n := by
    intro hn
    obtain ⟨rest, hremove, hflatten, -⟩ := removeFront_append l.views [] n hn
    rw [List.append_nil, List.append_nil] at hremove
    exact ⟨⟨rest⟩, by rw [removePrefix, hremove]; rfl, hflatten⟩
  refine ⟨hok, ?_, ?_⟩
  · intro herror
    by_contra hle
    obtain ⟨rest, hrest, -⟩ := hok (by omega)
    rw [hrest] at herror
    cases herror
  · intro hlt
    rw [removePrefix, removeFront_error _ _ hlt]
    rfl

end BufferViewList

open BufferViewList (removeFront)

/-! ## §2 The kernel -/

/-- A kernel that takes part of what `writev` is offered, and something of every offer.  What it
    took is returned as a `ssize_t`; a call that succeeds leaves `errno` as it was. -/
structure ShortWrites where
  consumed : ℕ → Bytes → ℕ
  errno : ℕ → Bytes → ℤ
  consumed_le : ∀ call offer, consumed call offer ≤ offer.length
  consumed_pos : ∀ call offer, offer ≠ [] → 0 < consumed call offer
  consumed_lt : ∀ call offer, consumed call offer < 2 ^ 63

namespace ShortWrites

/-- A system call that takes all it is offered, up to a limit. -/
def upTo (limit : ℕ) (hpos : 0 < limit) (hlt : limit < 2 ^ 31) : ShortWrites where
  consumed _ offer := min limit offer.length
  errno _ _ := 0
  consumed_le _ _ := min_le_right _ _
  consumed_pos _ _ hne := lt_min hpos (List.length_pos_iff.mpr hne)
  consumed_lt _ _ := (min_le_left _ _).trans_lt (hlt.trans (by decide))

/-- The limit of Linux. -/
def linux : ShortWrites :=
  upTo 0x7ffff000 (by decide) (by decide)

variable (k : ShortWrites)

/-- The system call. -/
def writev (call : ℕ) (offer : Bytes) : WritevResult where
  returnValue := k.consumed call offer
  errno := k.errno call offer

/-- What is left of `data` when it has been offered, in full each time, in so many calls from
    the call `call` on. -/
def left (call : ℕ) (data : Bytes) : ℕ → Bytes
  | 0 => data
  | j + 1 => left (call + 1) (data.drop (k.consumed call data)) j

/-- No call takes more than an `int` can say. -/
def FitsInt (call : ℕ) (data : Bytes) : Prop :=
  ∀ j, k.consumed (call + j) (k.left call data j) < 2 ^ 31

@[simp] theorem consumed_nil (call : ℕ) : k.consumed call [] = 0 := by
  have := k.consumed_le call []
  simpa using this

theorem left_nil (j : ℕ) : ∀ call, k.left call [] j = [] := by
  induction j with
  | zero => intro call; rfl
  | succ j ih => intro call; simp [left, ih]

theorem fitsInt_nil (call : ℕ) : k.FitsInt call [] := by
  intro j
  rw [left_nil, consumed_nil]
  exact Nat.two_pow_pos 31

theorem fitsInt_upTo {limit : ℕ} (hpos : 0 < limit) (hlt : limit < 2 ^ 31) (call : ℕ)
    (data : Bytes) : (upTo limit hpos hlt).FitsInt call data :=
  fun _ => (min_le_left _ _).trans_lt hlt

theorem fitsInt_step {call : ℕ} {data : Bytes} : k.FitsInt call data ↔
    k.consumed call data < 2 ^ 31 ∧
      k.FitsInt (call + 1) (data.drop (k.consumed call data)) := by
  have hshift : ∀ j, call + (j + 1) = call + 1 + j := by omega
  constructor
  · intro h
    refine ⟨h 0, fun j => ?_⟩
    have hj := h (j + 1)
    rw [hshift] at hj
    exact hj
  · rintro ⟨hfirst, hrest⟩ j
    cases j with
    | zero => exact hfirst
    | succ j =>
      rw [hshift]
      exact hrest j

end ShortWrites

/-! ## §3 One call -/

/-- Of the views, those in `A` are offered: the count of all of them, as an `int`, is the length
    of `A`. -/
structure Offers (views A B : List Bytes) : Prop where
  split : views = A ++ B
  count : (asInt views.length).toNat = A.length

namespace Offers

variable {views A B : List Bytes}

theorem start (views : List Bytes) : Offers views (views.take (asInt views.length).toNat)
    (views.drop (asInt views.length).toNat) := by
  refine ⟨(List.take_append_drop _ _).symm, ?_⟩
  rw [List.length_take]
  unfold asInt
  omega

theorem offered_eq (h : Offers views A B) : offered views (asInt views.length) = A.flatten := by
  rw [offered, h.count, h.split, List.take_left]

/-- When the views that are cut off are empty, everything is offered. -/
theorem flatten_eq (h : Offers views A B) (hB : B.flatten = []) : views.flatten = A.flatten := by
  rw [h.split, List.flatten_append, hB, List.append_nil]

/-- Fewer views in front are still all offered. -/
theorem advance (h : Offers views A B) {A' : List Bytes} (hle : A'.length ≤ A.length) :
    Offers (A' ++ B) A' B := by
  refine ⟨rfl, ?_⟩
  have hcount := h.count
  rw [h.split] at hcount
  simp only [List.length_append, asInt] at hcount ⊢
  omega

end Offers

namespace FileDescriptor

variable {k : ShortWrites} {s t : WriteState} {A B : List Bytes}

/-- The loop state after a call: the views that are left, the result that the source has seen, and
    the bytes that the kernel has taken. -/
def WriteState.after (s : WriteState) (views : List Bytes) (w : ℤ) (taken : Bytes) :
    WriteState where
  fd := s.fd.registerWrite
  buffer := ⟨views⟩
  totalBytesWritten := sizeT (s.totalBytesWritten + asSizeT w)
  calls := s.calls + 1
  handedOver := s.handedOver ++ taken

/-- **One call.**  The checks that it has passed, and what it has done. -/
theorem writeOnce_eq_ok_iff (hoffers : Offers s.buffer.views A B) {n : ℕ}
    (hn : k.consumed s.calls A.flatten = n) :
    writeOnce k.writev s = .ok t ↔
      (0 ≤ asInt n ∨ k.errno s.calls A.flatten = 0) ∧ ¬ (asInt n = 0 ∧ s.buffer.size ≠ 0) ∧
        asInt n ≤ asSsizeT s.buffer.size ∧
        ∃ views, removeFront (asSizeT (asInt n)) s.buffer.views = .ok views ∧
          t = s.after views (asInt n) (A.flatten.take n) := by
  have hoffered : offered s.buffer.asIovecs (asInt s.buffer.asIovecs.length) = A.flatten :=
    hoffers.offered_eq
  rw [writeOnce]
  simp only [hoffered, ShortWrites.writev, hn, systemCall, BufferViewList.removePrefix,
    Int.toNat_natCast]
  by_cases hcall : 0 ≤ asInt n ∨ k.errno s.calls A.flatten = 0
  · rw [if_pos hcall, and_iff_right hcall, Loop.ok_bind]
    by_cases hzero : asInt n = 0 ∧ s.buffer.size ≠ 0
    · rw [if_pos hzero, Loop.throw_bind]
      exact iff_of_false nofun fun h => h.1 hzero
    rw [if_neg hzero, and_iff_right hzero]
    by_cases hmore : asInt n > asSsizeT s.buffer.size
    · rw [if_pos hmore, Loop.throw_bind]
      exact iff_of_false nofun fun h => absurd h.1 (not_le.mpr hmore)
    rw [if_neg hmore, and_iff_right (not_lt.mp hmore)]
    cases removeFront (asSizeT (asInt n)) s.buffer.views with
    | error e => exact iff_of_false nofun (by simp)
    | ok views =>
      dsimp only [Except.map]
      simp [pure, Except.pure, WriteState.after, eq_comm]
  · rw [if_neg hcall]
    exact iff_of_false nofun fun h => hcall h.1

/-- **A call on fewer than `2 ^ 63` bytes.**  Of the `n` bytes that the kernel took, the source
    removes the `w` that an `int` shows; nothing else passes its checks. -/
theorem writeOnce_of_lt (hoffers : Offers s.buffer.views A B)
    (hlt : s.buffer.views.flatten.length < 2 ^ 63) {n : ℕ}
    (hn : k.consumed s.calls A.flatten = n) (h : writeOnce k.writev s = .ok t) :
    ∃ (w : ℕ) (A' : List Bytes), t = s.after (A' ++ B) w (A.flatten.take n) ∧
      Offers (A' ++ B) A' B ∧ A'.flatten = A.flatten.drop w ∧
      w ≤ n ∧ n ≤ A.flatten.length ∧ w < 2 ^ 31 ∧ (n < 2 ^ 31 → w = n) := by
  obtain ⟨-, -, -, views, hremove, rfl⟩ := (writeOnce_eq_ok_iff hoffers hn).mp h
  have hnlt : n < 2 ^ 63 := hn ▸ k.consumed_lt _ _
  have hnle : n ≤ A.flatten.length := hn ▸ k.consumed_le _ _
  -- a negative result would be removed as a number beyond every size
  have hremoved := BufferViewList.removeFront_ok_le hremove
  have hnonneg : 0 ≤ asInt n := by
    unfold asSizeT asInt at hremoved
    unfold asInt
    omega
  obtain ⟨w, hw⟩ := Int.eq_ofNat_of_zero_le hnonneg
  have hshown : w ≤ n ∧ w < 2 ^ 31 ∧ (n < 2 ^ 31 → w = n) := by
    unfold asInt at hw
    omega
  have hsize : asSizeT (w : ℤ) = w := asSizeT_of_lt (by omega)
  obtain ⟨A', hA', hflatten, hlength⟩ :=
    BufferViewList.removeFront_append A B w (hshown.1.trans hnle)
  rw [hw, hsize, hoffers.split, hA'] at hremove
  refine ⟨w, A', ?_, hoffers.advance hlength, hflatten, hshown.1, hnle, hshown.2⟩
  rw [hw, ← Except.ok.inj hremove]

/-- A call whose result fits an `int`, on views that are offered in full, removes what it took. -/
theorem writeOnce_exact (hoffers : Offers s.buffer.views A B)
    (hlt : s.buffer.views.flatten.length < 2 ^ 63) (hB : B.flatten = []) {n : ℕ}
    (hn : k.consumed s.calls A.flatten = n) (hfits : n < 2 ^ 31) :
    ∃ A', writeOnce k.writev s = .ok (s.after (A' ++ B) n (A.flatten.take n)) ∧
      Offers (A' ++ B) A' B ∧ A'.flatten = A.flatten.drop n := by
  have hnle : n ≤ A.flatten.length := hn ▸ k.consumed_le _ _
  have hall := hoffers.flatten_eq hB
  rw [hall] at hlt
  have hsize : s.buffer.size = A.flatten.length := by
    rw [BufferViewList.size_eq, hall]
    omega
  obtain ⟨A', hremove, hflatten, hlength⟩ := BufferViewList.removeFront_append A B n hnle
  refine ⟨A', (writeOnce_eq_ok_iff hoffers hn).mpr ?_, hoffers.advance hlength, hflatten⟩
  rw [asInt_of_lt hfits, asSizeT_of_lt (by omega), hsize, asSsizeT_of_lt hlt]
  refine ⟨.inl (by omega), ?_, ?_, A' ++ B, by rw [hoffers.split, hremove], rfl⟩
  · -- the kernel takes something of every offer
    rintro ⟨hzero, hne⟩
    have := k.consumed_pos s.calls A.flatten (by rintro hnil; simp [hnil] at hne)
    omega
  · omega

/-! ## §4 The loop -/

/-- The write ends, the bytes handed over are those of the views, and the result is their
    number. -/
def WritesAll (k : ShortWrites) (fd : FileDescriptor) (buffer : BufferViewList) : Prop :=
  ∃ calls s, fd.write k.writev buffer true calls = some (.ok s) ∧
    s.handedOver = buffer.views.flatten ∧ s.totalBytesWritten = buffer.views.flatten.length

/-- What is handed over and what is still offered make up the data; the kernel will take it in
    portions that fit. -/
structure Pending (k : ShortWrites) (data : Bytes) (B : List Bytes) (s : WriteState) : Prop where
  offers : ∃ A, Offers s.buffer.views A B ∧ s.handedOver ++ A.flatten = data ∧
    k.FitsInt s.calls A.flatten
  total : s.totalBytesWritten = s.handedOver.length

theorem writeRound_of_ok {writev : ℕ → Bytes → WritevResult} (h : writeOnce writev s = .ok t) :
    writeRound writev true s = if t.buffer.size = 0 then .exit (.ok t) else .next t := by
  rw [writeRound, h]
  by_cases hsize : t.buffer.size = 0 <;> simp [hsize]

/-- The first call of a write that returns, and what is left to do after it. -/
theorem iterate_succ_inv {writev : ℕ → Bytes → WritevResult} {calls : ℕ} {r : WriteState}
    (h : Loop.iterate (writeRound writev true) (calls + 1) s = some (.ok r)) :
    ∃ t, writeOnce writev s = .ok t ∧
      (t.buffer.size = 0 ∧ t = r ∨
        Loop.iterate (writeRound writev true) calls t = some (.ok r)) := by
  rw [Loop.iterate] at h
  cases hcall : writeOnce writev s with
  | error e =>
    rw [writeRound, hcall] at h
    cases h
  | ok t =>
    rw [writeRound_of_ok hcall] at h
    refine ⟨t, rfl, ?_⟩
    by_cases hsize : t.buffer.size = 0
    · rw [if_pos hsize] at h
      exact .inl ⟨hsize, Except.ok.inj (Option.some.inj h)⟩
    · rw [if_neg hsize] at h
      exact .inr h

/-- One round hands over a part of what is pending. -/
theorem Pending.step {data : Bytes} (hdata : data.length < 2 ^ 63) (hB : B.flatten = [])
    (h : Pending k data B s) :
    ∃ t, writeOnce k.writev s = .ok t ∧ Pending k data B t ∧
      (t.buffer.size = 0 → t.handedOver = data) ∧
      (t.buffer.size ≠ 0 →
        t.buffer.views.flatten.length < s.buffer.views.flatten.length) := by
  obtain ⟨⟨A, hoffers, hsplit, hfits⟩, htotal⟩ := h
  have hlength : s.handedOver.length + A.flatten.length = data.length := by
    rw [← hsplit, List.length_append]
  obtain ⟨hfit, hrest⟩ := k.fitsInt_step.mp hfits
  have hle := k.consumed_le s.calls A.flatten
  obtain ⟨A', hcall, hoffers', hflatten⟩ :=
    writeOnce_exact hoffers (by rw [hoffers.flatten_eq hB]; omega) hB rfl hfit
  generalize hn : k.consumed s.calls A.flatten = n at *
  have hsize : (BufferViewList.mk (A' ++ B)).size = A.flatten.length - n := by
    rw [BufferViewList.size_eq, hoffers'.flatten_eq hB, hflatten, List.length_drop]
    omega
  refine ⟨_, hcall, ⟨⟨A', hoffers', ?_, hflatten ▸ hrest⟩, ?_⟩, ?_, ?_⟩
  · rw [hflatten, WriteState.after, List.append_assoc, List.take_append_drop, hsplit]
  · simp only [WriteState.after, htotal, List.length_append, List.length_take, sizeT]
    rw [asSizeT_of_lt (by omega)]
    omega
  · intro hzero
    have hend : n = A.flatten.length := by
      have : A.flatten.length - n = 0 := hsize ▸ hzero
      omega
    rw [WriteState.after, hend, List.take_length, hsplit]
  · intro hne
    have hmore : A.flatten.length - n ≠ 0 := hsize ▸ hne
    have hpos := k.consumed_pos s.calls A.flatten (by rintro hnil; simp [hnil] at hmore)
    rw [hoffers.flatten_eq hB, WriteState.after, hoffers'.flatten_eq hB, hflatten,
      List.length_drop]
    omega

/-- Under short writes that fit, everything is handed over. -/
theorem writesAll_of (fd : FileDescriptor) {buffer : BufferViewList}
    (hlt : buffer.views.flatten.length < 2 ^ 63)
    (hcut : (buffer.views.drop (asInt buffer.views.length).toNat).flatten = [])
    (hfits : k.FitsInt 0 buffer.views.flatten) : WritesAll k fd buffer := by
  have hoffers := Offers.start buffer.views
  generalize hA : buffer.views.take (asInt buffer.views.length).toNat = A at hoffers
  generalize hB : buffer.views.drop (asInt buffer.views.length).toNat = B at hoffers hcut
  have hall := hoffers.flatten_eq hcut
  rw [hall] at hfits
  have hstart : Pending k buffer.views.flatten B { fd, buffer } :=
    ⟨⟨A, hoffers, by rw [hall, List.nil_append], hfits⟩, rfl⟩
  have hexit : ∀ s r, Pending k buffer.views.flatten B s →
      writeRound k.writev true s = .exit r →
      ∃ t, r = .ok t ∧ t.handedOver = buffer.views.flatten ∧
        t.totalBytesWritten = buffer.views.flatten.length := by
    intro s r hs hround
    obtain ⟨t, hcall, ht, hend, -⟩ := hs.step hlt hcut
    rw [writeRound_of_ok hcall] at hround
    split at hround
    · rename_i hzero
      cases hround
      exact ⟨t, rfl, hend hzero, by rw [ht.total, hend hzero]⟩
    · cases hround
  have hnext : ∀ s t, Pending k buffer.views.flatten B s →
      writeRound k.writev true s = .next t → Pending k buffer.views.flatten B t ∧
        t.buffer.views.flatten.length < s.buffer.views.flatten.length := by
    intro s t hs hround
    obtain ⟨t', hcall, ht, -, hless⟩ := hs.step hlt hcut
    rw [writeRound_of_ok hcall] at hround
    split at hround
    · cases hround
    · rename_i hne
      cases hround
      exact ⟨ht, hless hne⟩
  obtain ⟨r, hrun, s, rfl, hhanded, htotal⟩ := Loop.iterate_spec
    (fun s : WriteState => s.buffer.views.flatten.length) hexit hnext
    (buffer.views.flatten.length + 1) { fd, buffer } hstart (Nat.lt_succ_self _)
  exact ⟨buffer.views.flatten.length + 1, s, by rw [write, hrun], hhanded, htotal⟩

/-- **What a write that returns has handed over**: at least what the views held.  It is no more
    only if every view was offered and every result fitted. -/
theorem handedOver_of_ok {r : WriteState} : ∀ (calls : ℕ) (s : WriteState) (A : List Bytes),
    Offers s.buffer.views A B → s.buffer.views.flatten.length < 2 ^ 63 →
    Loop.iterate (writeRound k.writev true) calls s = some (.ok r) →
    ∃ handed, r.handedOver = s.handedOver ++ handed ∧
      s.buffer.views.flatten.length ≤ handed.length ∧
      (s.buffer.views.flatten.length < 2 ^ 31 →
        handed.length ≤ s.buffer.views.flatten.length) ∧
      (handed.length ≤ s.buffer.views.flatten.length →
        B.flatten = [] ∧ k.FitsInt s.calls A.flatten) := by
  intro calls
  induction calls with
  | zero => intro s A _ _ h; cases h
  | succ calls ih =>
    intro s A hoffers hlt h
    obtain ⟨t, hcall, h⟩ := iterate_succ_inv h
    obtain ⟨w, A', rfl, hoffers', hflatten, hwn, hnle, hw, hfit⟩ :=
      writeOnce_of_lt hoffers hlt rfl hcall
    rw [k.fitsInt_step]
    generalize k.consumed s.calls A.flatten = n at *
    have hlength : s.buffer.views.flatten.length = A.flatten.length + B.flatten.length := by
      rw [hoffers.split, List.flatten_append, List.length_append]
    have hlength' : (A' ++ B).flatten.length = A.flatten.length - w + B.flatten.length := by
      rw [List.flatten_append, List.length_append, hflatten, List.length_drop]
    have htaken : (A.flatten.take n).length = n := by
      rw [List.length_take]
      omega
    rcases h with ⟨hsize, rfl⟩ | h
    · -- the last call: nothing was left
      have hend : (A' ++ B).flatten.length = 0 := by
        rw [WriteState.after, BufferViewList.size_eq] at hsize
        dsimp only at hsize
        omega
      have hB : B.flatten = [] := List.eq_nil_of_length_eq_zero (by omega)
      have hdrop : A.flatten.drop n = [] := List.drop_eq_nil_of_le (by omega)
      refine ⟨_, rfl, by omega, by omega, fun _ => ⟨hB, by omega, ?_⟩⟩
      rw [hdrop]
      exact k.fitsInt_nil _
    · obtain ⟨handed, hr, hge, hle, hexact⟩ :=
        ih (s.after (A' ++ B) w (A.flatten.take n)) A' hoffers'
          (by rw [WriteState.after]; dsimp only; omega) h
      simp only [WriteState.after] at hr hge hle hexact
      refine ⟨A.flatten.take n ++ handed, by rw [hr, List.append_assoc], ?_, ?_, ?_⟩
      · rw [List.length_append]
        omega
      · intro hsmall
        have := hfit (by omega)
        have := hle (by omega)
        rw [List.length_append]
        omega
      · -- no more than the views held, so this call removed all that it took
        intro hno
        rw [List.length_append] at hno
        obtain rfl : w = n := by omega
        obtain ⟨hB, hrest⟩ := hexact (by omega)
        exact ⟨hB, hw, hflatten ▸ hrest⟩

/-- The result is a `size_t`. -/
theorem totalBytesWritten_lt {r : WriteState} : ∀ (calls : ℕ) (s : WriteState),
    Loop.iterate (writeRound k.writev true) calls s = some (.ok r) →
    r.totalBytesWritten < 2 ^ 64 := by
  intro calls
  induction calls with
  | zero => intro s h; cases h
  | succ calls ih =>
    intro s h
    obtain ⟨t, hcall, ⟨-, rfl⟩ | h⟩ := iterate_succ_inv h
    · obtain ⟨-, -, -, views, -, rfl⟩ := (writeOnce_eq_ok_iff (Offers.start _) rfl).mp hcall
      exact Nat.mod_lt _ (Nat.two_pow_pos 64)
    · exact ih t h

/-- A write that is right is one of fewer than `2 ^ 63` bytes.  The size of more is negative as a
    `ssize_t`, and the only results that are no larger remove almost everything. -/
theorem length_lt_of_writesAll {fd : FileDescriptor} {buffer : BufferViewList}
    (h : WritesAll k fd buffer) : buffer.views.flatten.length < 2 ^ 63 := by
  obtain ⟨calls, r, hrun, hhanded, htotal⟩ := h
  rw [write] at hrun
  have hlt : buffer.views.flatten.length < 2 ^ 64 := htotal ▸ totalBytesWritten_lt calls _ hrun
  have hlength : r.handedOver.length = buffer.views.flatten.length := by rw [hhanded]
  by_contra hlarge
  cases calls with
  | zero => cases hrun
  | succ calls =>
    obtain ⟨t, hcall, hrun⟩ := iterate_succ_inv hrun
    have hoffers := Offers.start buffer.views
    generalize buffer.views.take (asInt buffer.views.length).toNat = A at hoffers
    generalize buffer.views.drop (asInt buffer.views.length).toNat = B at hoffers
    obtain ⟨-, -, hle, views, hremove, hafter⟩ := (writeOnce_eq_ok_iff hoffers rfl).mp hcall
    have hnlt := k.consumed_lt 0 A.flatten
    dsimp only at hle hremove hafter
    generalize k.consumed 0 A.flatten = n at *
    have hremoved := BufferViewList.removeFront_ok_le hremove
    rw [BufferViewList.size_eq, Nat.mod_eq_of_lt hlt] at hle
    -- the bytes that the call removes are many more than those that it took
    have hmore : 2 ^ 64 - 2 ^ 31 ≤ asSizeT (asInt n) := by
      unfold asSsizeT asInt at hle
      unfold asSizeT asInt
      omega
    have hleft : views.flatten.length = buffer.views.flatten.length - asSizeT (asInt n) := by
      obtain ⟨rest, hrest, hflatten, -⟩ :=
        BufferViewList.removeFront_append buffer.views [] _ hremoved
      rw [List.append_nil, List.append_nil, hremove] at hrest
      rw [Except.ok.inj hrest, hflatten, List.length_drop]
    have htaken : (A.flatten.take n).length ≤ n := List.length_take_le _ _
    have hviews : t.buffer.views = views := by rw [hafter]; rfl
    have hfirst : t.handedOver = A.flatten.take n := by rw [hafter]; rfl
    rcases hrun with ⟨-, rfl⟩ | hrun
    · rw [hfirst] at hlength
      omega
    · obtain ⟨handed, hr, -, hfew, -⟩ := handedOver_of_ok calls t _
        (Offers.start t.buffer.views) (by rw [hviews]; omega) hrun
      rw [hviews] at hfew
      have := hfew (by omega)
      rw [hr, hfirst, List.length_append] at hlength
      omega

/-- A write that is right is one that no conversion disturbs. -/
theorem fits_of_writesAll {fd : FileDescriptor} {buffer : BufferViewList}
    (h : WritesAll k fd buffer) :
    buffer.views.flatten.length < 2 ^ 63 ∧
      (buffer.views.drop (asInt buffer.views.length).toNat).flatten = [] ∧
      k.FitsInt 0 buffer.views.flatten := by
  have hlt := length_lt_of_writesAll h
  obtain ⟨calls, r, hrun, hhanded, -⟩ := h
  rw [write] at hrun
  obtain ⟨handed, hr, -, -, hexact⟩ :=
    handedOver_of_ok calls _ _ (Offers.start buffer.views) hlt hrun
  rw [List.nil_append, hhanded] at hr
  obtain ⟨hcut, hfits⟩ := hexact (by rw [hr])
  rw [← (Offers.start buffer.views).flatten_eq hcut] at hfits
  exact ⟨hlt, hcut, hfits⟩

/-- **Gathered writes under short writes.**  Every byte is handed over once, and prefixes are
    removed as they should be, exactly if the views hold fewer than `2 ^ 63` bytes, the views that
    the `int` count of `iovec`s cuts off are empty, and no call takes more than an `int` can say. -/
theorem writesAll_iff (k : ShortWrites) (fd : FileDescriptor) (buffer : BufferViewList) :
    WritesAll k fd buffer ∧ buffer.RemovesPrefixes ↔
      buffer.views.flatten.length < 2 ^ 63 ∧
        (buffer.views.drop (asInt buffer.views.length).toNat).flatten = [] ∧
        k.FitsInt 0 buffer.views.flatten := by
  constructor
  · rintro ⟨hwrites, -⟩
    exact fits_of_writesAll hwrites
  · rintro ⟨hlt, hcut, hfits⟩
    exact ⟨writesAll_of fd hlt hcut hfits, BufferViewList.removesPrefixes (by omega)⟩

/-- **Views whose number is zero as an `int`.**  No kernel is offered anything, and the write throws
    at its first call. -/
theorem write_of_count_zero (k : ShortWrites) (fd : FileDescriptor) {views : List Bytes}
    (hcount : asInt views.length = 0) (hsize : views.flatten.length % 2 ^ 64 ≠ 0) (calls : ℕ) :
    fd.write k.writev ⟨views⟩ true (calls + 1) =
      some (.error (.runtimeError ⟨"write returned 0 given non-empty input buffer"⟩)) := by
  have hoffer : offered views (asInt views.length) = [] := by simp [offered, hcount]
  have hcall : k.writev 0 [] = ⟨0, k.errno 0 []⟩ := by simp [ShortWrites.writev]
  have hzero : asInt 0 = 0 := by decide
  have hfull : (BufferViewList.mk views).size ≠ 0 := by
    rw [BufferViewList.size_eq]
    exact hsize
  have honce : writeOnce k.writev { fd, buffer := ⟨views⟩ } =
      .error (.runtimeError ⟨"write returned 0 given non-empty input buffer"⟩) := by
    unfold writeOnce systemCall
    simp only [BufferViewList.asIovecs, hoffer, hcall, hzero, le_refl, true_or, if_true,
      Loop.ok_bind]
    rw [if_pos ⟨trivial, hfull⟩]
    rfl
  rw [write, Loop.iterate, writeRound, honce]

theorem not_writesAll_of_count_zero (k : ShortWrites) (fd : FileDescriptor) {views : List Bytes}
    (hcount : asInt views.length = 0) (hsize : views.flatten.length % 2 ^ 64 ≠ 0) :
    ¬ WritesAll k fd ⟨views⟩ := by
  rintro ⟨calls, s, hrun, -⟩
  cases calls with
  | zero => cases hrun
  | succ calls =>
    rw [write_of_count_zero k fd hcount hsize calls] at hrun
    cases hrun

/-- `2 ^ 32` views of one byte each, on Linux: no call takes more than an `int` can say, and yet the
    write throws at its first call. -/
theorem not_writesAll_countless_views :
    ShortWrites.linux.FitsInt 0 (List.replicate (2 ^ 32) [0]).flatten ∧
      FileDescriptor.write ShortWrites.linux.writev {} ⟨List.replicate (2 ^ 32) [0]⟩ true 1 =
        some (.error (.runtimeError ⟨"write returned 0 given non-empty input buffer"⟩)) ∧
      ¬ WritesAll ShortWrites.linux {} ⟨List.replicate (2 ^ 32) [0]⟩ := by
  have hlength : (List.replicate (2 ^ 32) ([0] : Bytes)).length = 2 ^ 32 := List.length_replicate
  have hflatten : (List.replicate (2 ^ 32) ([0] : Bytes)).flatten.length = 2 ^ 32 := by
    rw [List.flatten_replicate_singleton, List.length_replicate]
  generalize List.replicate (2 ^ 32) ([0] : Bytes) = views at hlength hflatten ⊢
  have hcount : asInt views.length = 0 := by rw [hlength]; decide
  have hsize : views.flatten.length % 2 ^ 64 ≠ 0 := by rw [hflatten]; decide
  exact ⟨ShortWrites.fitsInt_upTo _ _ 0 _, write_of_count_zero _ {} hcount hsize 0,
    not_writesAll_of_count_zero _ {} hcount hsize⟩

end FileDescriptor

end Sponge
