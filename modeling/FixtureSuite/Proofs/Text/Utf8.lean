import FixtureSuite.Text.Utf8

/-!
# Texts survive being encoded

What `Utf8.encode` writes is read back by `Utf8.decode`, so a file that holds an encoded text is
that text for a reader. The pass is followed character by character: between two characters nothing
is pending, and the bytes of a character leave exactly that character behind
(`foldl_step_encodeChar`).

The ranges of second bytes in `lead?` are what the proof is about. A character of three or four
bytes stays inside its range because it is no overlong form, no surrogate and not above U+10FFFF.

The last section is about repairing: a byte below 0x80 is never lost to a broken piece
(`mem_decodeLossy`).
-/

namespace FixtureSuite

namespace Utf8

/-! ## First bytes -/

/-- A first byte of two. -/
theorem lead?_two : ∀ m < 32, 2 ≤ m →
    lead? (UInt8.ofNat (0xC0 + m)) = some ⟨[UInt8.ofNat (0xC0 + m)], m, 1, 0x80, 0xBF⟩ := by
  decide

/-- A first byte of three. -/
theorem lead?_three : ∀ m < 16,
    lead? (UInt8.ofNat (0xE0 + m)) = some ⟨[UInt8.ofNat (0xE0 + m)], m, 2,
      if m = 0 then 0xA0 else 0x80, if m = 13 then 0x9F else 0xBF⟩ := by
  decide

/-- A first byte of four. -/
theorem lead?_four : ∀ m < 5,
    lead? (UInt8.ofNat (0xF0 + m)) = some ⟨[UInt8.ofNat (0xF0 + m)], m, 3,
      if m = 0 then 0x90 else 0x80, if m = 4 then 0x8F else 0xBF⟩ := by
  decide

theorem toNat_ofNat {m : Nat} (h : m < 256) : (UInt8.ofNat m).toNat = m := by
  simp [Nat.mod_eq_of_lt h]

/-! ## Steps of the pass -/

theorem step_ascii (done : List Piece) {n : Nat} (h : n < 0x80) :
    Scan.step ⟨done, none⟩ (UInt8.ofNat n) = ⟨.char (Char.ofNat n) :: done, none⟩ := by
  have hlt : UInt8.ofNat n < 0x80 := by
    rw [UInt8.lt_iff_toNat_lt, toNat_ofNat (by omega)]
    exact h
  simp only [Scan.step, Scan.start, hlt, if_true, toNat_ofNat (show n < 256 by omega)]

theorem step_lead (done : List Piece) {n : Nat} (h : n < 256) (high : 0x80 ≤ n) {p : Pending}
    (hp : lead? (UInt8.ofNat n) = some p) :
    Scan.step ⟨done, none⟩ (UInt8.ofNat n) = ⟨done, some p⟩ := by
  have hge : ¬ UInt8.ofNat n < 0x80 := by
    rw [UInt8.lt_iff_toNat_lt, toNat_ofNat h]
    exact Nat.not_lt.mpr high
  simp only [Scan.step, Scan.start, hge, if_false, hp]

/-- A byte that goes on with the pending character and does not end it. -/
theorem step_more (done : List Piece) {p : Pending} {n : Nat} (h : n < 64)
    (least : p.least.toNat ≤ 0x80 + n) (greatest : 0x80 + n ≤ p.greatest.toNat)
    (missing : p.missing ≠ 1) :
    Scan.step ⟨done, some p⟩ (UInt8.ofNat (0x80 + n)) =
      ⟨done, some ⟨p.bytes ++ [UInt8.ofNat (0x80 + n)], p.value * 64 + n, p.missing - 1,
        0x80, 0xBF⟩⟩ := by
  have hin : p.least ≤ UInt8.ofNat (0x80 + n) ∧ UInt8.ofNat (0x80 + n) ≤ p.greatest := by
    rw [UInt8.le_iff_toNat_le, UInt8.le_iff_toNat_le, toNat_ofNat (by omega)]
    exact ⟨least, greatest⟩
  simp only [Scan.step, hin, missing, toNat_ofNat (show 0x80 + n < 256 by omega), and_self,
    if_true, if_false, Nat.add_sub_cancel_left]

/-- A byte that ends the pending character. -/
theorem step_last (done : List Piece) {p : Pending} {n : Nat} (h : n < 64)
    (least : p.least.toNat ≤ 0x80 + n) (greatest : 0x80 + n ≤ p.greatest.toNat)
    (missing : p.missing = 1) :
    Scan.step ⟨done, some p⟩ (UInt8.ofNat (0x80 + n)) =
      ⟨.char (Char.ofNat (p.value * 64 + n)) :: done, none⟩ := by
  have hin : p.least ≤ UInt8.ofNat (0x80 + n) ∧ UInt8.ofNat (0x80 + n) ≤ p.greatest := by
    rw [UInt8.le_iff_toNat_le, UInt8.le_iff_toNat_le, toNat_ofNat (by omega)]
    exact ⟨least, greatest⟩
  simp only [Scan.step, hin, missing, toNat_ofNat (show 0x80 + n < 256 by omega), and_self,
    if_true, Nat.add_sub_cancel_left]

/-- What the numbers of characters are. -/
theorem toNat_range (c : Char) : c.toNat < 0xD800 ∨ 0xDFFF < c.toNat ∧ c.toNat < 0x110000 :=
  c.valid

/-- **One character.** Its bytes leave it behind, and nothing pending. -/
theorem foldl_step_encodeChar (done : List Piece) (c : Char) :
    (encodeChar c).foldl Scan.step ⟨done, none⟩ = ⟨.char c :: done, none⟩ := by
  have range := toNat_range c
  have whole : Char.ofNat c.toNat = c := Char.ofNat_toNat c
  unfold encodeChar
  generalize c.toNat = n at range whole ⊢
  subst whole
  simp only
  split
  · next h => simp only [List.foldl_cons, List.foldl_nil, step_ascii done h]
  split
  · next h1 h2 =>
    have first := lead?_two (n / 64) (by omega) (by omega)
    rw [List.foldl_cons, step_lead done (by omega) (by omega) first, List.foldl_cons,
      step_last done (by omega) (by simp) (by simp; omega) rfl, List.foldl_nil]
    simp only [Nat.div_add_mod']
  split
  · next h1 h2 h3 =>
    have first := lead?_three (n / 4096) (by omega)
    -- The size rules out overlong forms, and the range of characters rules out surrogates.
    have hleast : ((if n / 4096 = 0 then 0xA0 else 0x80 : UInt8)).toNat ≤ 0x80 + n / 64 % 64 := by
      split
      · simp; omega
      · simp
    have hgreatest : 0x80 + n / 64 % 64 ≤ (if n / 4096 = 13 then 0x9F else 0xBF : UInt8).toNat := by
      split
      · simp; omega
      · simp; omega
    rw [List.foldl_cons, step_lead done (by omega) (by omega) first, List.foldl_cons,
      step_more done (by omega) hleast hgreatest (by simp), List.foldl_cons,
      step_last done (by omega) (by simp) (by simp; omega) rfl, List.foldl_nil]
    have hvalue : (n / 4096 * 64 + n / 64 % 64) * 64 + n % 64 = n := by omega
    simp only [hvalue]
  · next h1 h2 h3 =>
    have first := lead?_four (n / 262144) (by omega)
    have hleast : ((if n / 262144 = 0 then 0x90 else 0x80 : UInt8)).toNat
        ≤ 0x80 + n / 4096 % 64 := by
      split
      · simp; omega
      · simp
    have hgreatest : 0x80 + n / 4096 % 64
        ≤ (if n / 262144 = 4 then 0x8F else 0xBF : UInt8).toNat := by
      split
      · simp; omega
      · simp; omega
    rw [List.foldl_cons, step_lead done (by omega) (by omega) first, List.foldl_cons,
      step_more done (by omega) hleast hgreatest (by simp), List.foldl_cons,
      step_more done (by omega) (by simp) (by simp; omega) (by simp), List.foldl_cons,
      step_last done (by omega) (by simp) (by simp; omega) rfl, List.foldl_nil]
    have hvalue : ((n / 262144 * 64 + n / 4096 % 64) * 64 + n / 64 % 64) * 64 + n % 64 = n := by
      omega
    simp only [hvalue]

/-! ## Texts -/

theorem foldl_step_encodeChars (done : List Piece) (chars : List Char) :
    (chars.flatMap encodeChar).foldl Scan.step ⟨done, none⟩
      = ⟨(chars.map Piece.char).reverse ++ done, none⟩ := by
  induction chars generalizing done with
  | nil => rfl
  | cons c rest ih =>
    rw [List.flatMap_cons, List.foldl_append, foldl_step_encodeChar, ih]
    simp

theorem pieces_encode (text : String) : pieces (encode text) = text.toList.map Piece.char := by
  rw [pieces, encode, foldl_step_encodeChars]
  simp [Scan.finish]

theorem firstFault_chars (index : Nat) (chars : List Char) :
    firstFault index (chars.map Piece.char) = none := by
  induction chars generalizing index with
  | nil => rfl
  | cons c rest ih => exact ih _

theorem repaired_pieces_encode (text : String) :
    (pieces (encode text)).map Piece.repaired = text.toList := by
  rw [pieces_encode, List.map_map]
  exact List.map_id' text.toList

/-- **The round trip.** An encoded text is read back. -/
theorem decode_encode (text : String) : decode (encode text) = .ok text := by
  have hfault : firstFault 0 (pieces (encode text)) = none := by
    rw [pieces_encode, firstFault_chars]
  simp only [decode, hfault, repaired_pieces_encode, String.ofList_toList]

/-- In an encoded text there is nothing to repair. -/
theorem decodeLossy_encode (text : String) : decodeLossy (encode text) = text := by
  rw [decodeLossy, repaired_pieces_encode, String.ofList_toList]

/-- Texts with the same bytes are the same. -/
theorem encode_injective {a b : String} (h : encode a = encode b) : a = b := by
  have := congrArg decode h
  rwa [decode_encode, decode_encode, Except.ok.injEq] at this

/-! ## Bytes below 0x80

Such a byte never belongs to a longer character, so it comes out of the pass as a character of its
own, in valid and in repaired texts alike. -/

/-- A pass that is inside a character accepts no byte below 0x80 there. -/
def Scan.Open (s : Scan) : Prop :=
  ∀ p, s.pending = some p → 0x80 ≤ p.least

theorem least_of_lead? {b : UInt8} {p : Pending} (h : lead? b = some p) : 0x80 ≤ p.least := by
  unfold lead? at h
  repeat' split at h
  all_goals cases h
  all_goals dsimp only
  all_goals decide

theorem start_open (done : List Piece) (b : UInt8) : (Scan.start done b).Open := by
  intro p hp
  unfold Scan.start at hp
  split at hp
  · cases hp
  · split at hp
    · next q hlead =>
      cases hp
      exact least_of_lead? hlead
    · cases hp

theorem step_open (s : Scan) (b : UInt8) : (s.step b).Open := by
  unfold Scan.step
  cases hs : s.pending with
  | none => exact start_open s.done b
  | some p =>
    simp only
    split
    · split
      · intro q hq
        cases hq
      · intro q hq
        cases hq
        exact UInt8.le_refl _
    · exact start_open _ b

theorem mem_done_start {x : Piece} {done : List Piece} (h : x ∈ done) (b : UInt8) :
    x ∈ (Scan.start done b).done := by
  unfold Scan.start
  split
  · exact List.mem_cons_of_mem _ h
  · split
    · exact h
    · exact List.mem_cons_of_mem _ h

/-- What the pass has completed stays. -/
theorem mem_done_step {x : Piece} {s : Scan} (h : x ∈ s.done) (b : UInt8) : x ∈ (s.step b).done := by
  unfold Scan.step
  cases hs : s.pending with
  | none => exact mem_done_start h b
  | some p =>
    simp only
    split
    · split
      · exact List.mem_cons_of_mem _ h
      · exact h
    · exact mem_done_start (List.mem_cons_of_mem _ h) b

theorem mem_done_foldl {x : Piece} (bytes : Bytes) {s : Scan} (h : x ∈ s.done) :
    x ∈ (bytes.foldl Scan.step s).done := by
  induction bytes generalizing s with
  | nil => exact h
  | cons b rest ih => exact ih (mem_done_step h b)

/-- A byte below 0x80 is completed at once. -/
theorem mem_done_step_ascii {s : Scan} (h : s.Open) {b : UInt8} (hb : b < 0x80) :
    Piece.char (Char.ofNat b.toNat) ∈ (s.step b).done := by
  have hstart : ∀ done, Piece.char (Char.ofNat b.toNat) ∈ (Scan.start done b).done := fun done => by
    simp [Scan.start, hb]
  unfold Scan.step
  cases hs : s.pending with
  | none => exact hstart _
  | some p =>
    have hout : ¬ (p.least ≤ b ∧ b ≤ p.greatest) := fun hin =>
      absurd (UInt8.lt_of_le_of_lt hin.1 hb) (UInt8.not_lt.mpr (h p hs))
    simp only [hout, if_false]
    exact hstart _

/-- **Bytes below 0x80.** In a repaired text each of them is still there, as its character. -/
theorem mem_decodeLossy {b : UInt8} {bytes : Bytes} (h : b ∈ bytes) (hb : b < 0x80) :
    Char.ofNat b.toNat ∈ (decodeLossy bytes).toList := by
  have hdone : ∀ s : Scan, s.Open →
      Piece.char (Char.ofNat b.toNat) ∈ (bytes.foldl Scan.step s).done := by
    induction bytes with
    | nil => cases h
    | cons a rest ih =>
      intro s hs
      rcases List.mem_cons.mp h with rfl | hrest
      · exact mem_done_foldl rest (mem_done_step_ascii hs hb)
      · exact ih hrest (s.step a) (step_open s a)
  have hpieces : Piece.char (Char.ofNat b.toNat) ∈ pieces bytes := by
    have hmem := hdone ⟨[], none⟩ (fun p hp => by cases hp)
    unfold pieces Scan.finish
    split
    · exact List.mem_reverse.mpr hmem
    · exact List.mem_reverse.mpr (List.mem_cons_of_mem _ hmem)
  rw [decodeLossy, String.toList_ofList]
  exact List.mem_map_of_mem (f := Piece.repaired) hpieces

end Utf8

end FixtureSuite
