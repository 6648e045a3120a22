import FixtureSuite.Proofs.Text.Utf8

/-!
# What the pieces are made of

The pass loses no byte: the pieces of a byte string, put together, are the byte string
(`flatMap_bytes_pieces`). For a piece that is not a character this is how it was made. For a
character it means that the number that was put together from six bits a byte is spelt by these
bytes again.

`Pending.Sound` says so of a character that is not complete: whatever it can still become is spelt
by the bytes that were read and those that are missing. A first byte promises this, in each of its
ranges, and a byte that goes on keeps it, so a last byte finds it settled.

The strict reader is then the inverse of encoding: it reads the bytes of a text, as that text, and
nothing else (`decode_eq_ok_iff`).
-/

namespace FixtureSuite

namespace Utf8

/-! ## The bytes of a character, by its number -/

/-- The number without so many of its last groups of six bits. -/
def front : Nat → Nat → Nat
  | 0, n => n
  | count + 1, n => front count n / 64

/-- The last bytes of the character with a number: so many of them, with six bits each. -/
def tail : Nat → Nat → Bytes
  | 0, _ => []
  | count + 1, n => UInt8.ofNat (0x80 + front count n % 64) :: tail count n

theorem toNat_ofNat_char {n : Nat} (h : n.isValidChar) : (Char.ofNat n).toNat = n := by
  rw [Char.ofNat, dif_pos h]
  rfl

theorem encodeChar_one {n : Nat} (h : n < 0x80) : encodeChar (Char.ofNat n) = [UInt8.ofNat n] := by
  have valid : n.isValidChar := .inl (by omega)
  simp only [encodeChar, toNat_ofNat_char valid, h, if_true]

theorem encodeChar_two {n : Nat} (least : 0x80 ≤ n) (h : n < 0x800) :
    encodeChar (Char.ofNat n) = UInt8.ofNat (0xC0 + front 1 n) :: tail 1 n := by
  have valid : n.isValidChar := .inl (by omega)
  simp only [encodeChar, toNat_ofNat_char valid, Nat.not_lt.mpr least, h, if_true, if_false]
  rfl

theorem encodeChar_three {n : Nat} (least : 0x800 ≤ n) (h : n < 0x10000) (valid : n.isValidChar) :
    encodeChar (Char.ofNat n) = UInt8.ofNat (0xE0 + front 2 n) :: tail 2 n := by
  have one : ¬ n < 0x80 := by omega
  have two : n / 4096 = n / 64 / 64 := by omega
  simp only [encodeChar, toNat_ofNat_char valid, one, Nat.not_lt.mpr least, h, two, if_true,
    if_false]
  rfl

theorem encodeChar_four {n : Nat} (least : 0x10000 ≤ n) (h : n < 0x110000) :
    encodeChar (Char.ofNat n) = UInt8.ofNat (0xF0 + front 3 n) :: tail 3 n := by
  have valid : n.isValidChar := .inr ⟨by omega, h⟩
  have one : ¬ n < 0x80 := by omega
  have two : ¬ n < 0x800 := by omega
  have front_two : n / 4096 = n / 64 / 64 := by omega
  have front_three : n / 262144 = n / 64 / 64 / 64 := by omega
  simp only [encodeChar, toNat_ofNat_char valid, one, two, Nat.not_lt.mpr least, front_two,
    front_three, if_false]
  rfl

/-! ## Pending characters -/

/-- Whatever the character can still become is spelt by the bytes that were read and those that are
missing. -/
structure Pending.Sound (p : Pending) : Prop where
  missing : 0 < p.missing
  least : 0x80 ≤ p.least.toNat
  greatest : p.greatest.toNat ≤ 0xBF
  spells : ∀ n, front p.missing n = p.value →
    p.least.toNat ≤ 0x80 + front (p.missing - 1) n % 64 →
    0x80 + front (p.missing - 1) n % 64 ≤ p.greatest.toNat →
    encodeChar (Char.ofNat n) = p.bytes ++ tail p.missing n

theorem sound_two {m : Nat} (least : 2 ≤ m) (h : m < 32) :
    Pending.Sound ⟨[UInt8.ofNat (0xC0 + m)], m, 1, 0x80, 0xBF⟩ := by
  refine ⟨Nat.zero_lt_one, Nat.le_refl _, Nat.le_refl _, fun n value _ _ => ?_⟩
  have hvalue : n / 64 = m := value
  rw [encodeChar_two (by omega) (by omega), value]
  rfl

theorem sound_three {m : Nat} (h : m < 16) :
    Pending.Sound ⟨[UInt8.ofNat (0xE0 + m)], m, 2, if m = 0 then 0xA0 else 0x80,
      if m = 13 then 0x9F else 0xBF⟩ := by
  have hrange : 0x80 ≤ (if m = 0 then 0xA0 else 0x80 : UInt8).toNat ∧
      (if m = 13 then 0x9F else 0xBF : UInt8).toNat ≤ 0xBF := by
    constructor <;> split <;> decide
  refine ⟨Nat.zero_lt_two, hrange.1, hrange.2, fun n value least greatest => ?_⟩
  have hvalue : n / 64 / 64 = m := value
  -- The second byte is above the overlong forms.
  have hleast : 0x800 ≤ n := by
    by_cases hm : m = 0
    · simp [hm, front] at least
      omega
    · omega
  -- The second byte is below the surrogates.
  have hvalid : n.isValidChar := by
    by_cases hm : m = 13
    · simp [hm, front] at greatest
      exact .inl (by omega)
    · unfold Nat.isValidChar
      omega
  rw [encodeChar_three hleast (by omega) hvalid, value]
  rfl

theorem sound_four {m : Nat} (h : m < 5) :
    Pending.Sound ⟨[UInt8.ofNat (0xF0 + m)], m, 3, if m = 0 then 0x90 else 0x80,
      if m = 4 then 0x8F else 0xBF⟩ := by
  have hrange : 0x80 ≤ (if m = 0 then 0x90 else 0x80 : UInt8).toNat ∧
      (if m = 4 then 0x8F else 0xBF : UInt8).toNat ≤ 0xBF := by
    constructor <;> split <;> decide
  refine ⟨Nat.zero_lt_succ 2, hrange.1, hrange.2, fun n value least greatest => ?_⟩
  have hvalue : n / 64 / 64 / 64 = m := value
  have hleast : 0x10000 ≤ n := by
    by_cases hm : m = 0
    · simp [hm, front] at least
      omega
    · omega
  have hgreatest : n < 0x110000 := by
    by_cases hm : m = 4
    · simp [hm, front] at greatest
      omega
    · omega
  rw [encodeChar_four hleast hgreatest, value]
  rfl

/-- The first bytes of longer characters. -/
theorem lead?_range : ∀ n < 256, (lead? (UInt8.ofNat n)).isSome →
    (0xC2 ≤ n ∧ n < 0xE0) ∨ (0xE0 ≤ n ∧ n < 0xF0) ∨ (0xF0 ≤ n ∧ n < 0xF5) := by
  decide +kernel

theorem sound_of_lead? {b : UInt8} {p : Pending} (h : lead? b = some p) :
    p.Sound ∧ p.bytes = [b] := by
  obtain ⟨n, hn, rfl⟩ : ∃ n < 256, UInt8.ofNat n = b := ⟨b.toNat, b.toNat_lt, UInt8.ofNat_toNat⟩
  rcases lead?_range n hn (Option.isSome_iff_exists.mpr ⟨p, h⟩) with ⟨least, h'⟩ | ⟨least, h'⟩ |
    ⟨least, h'⟩
  · obtain ⟨m, rfl⟩ := Nat.exists_eq_add_of_le (show 0xC0 ≤ n by omega)
    rw [lead?_two m (by omega) (by omega), Option.some.injEq] at h
    subst h
    exact ⟨sound_two (by omega) (by omega), rfl⟩
  · obtain ⟨m, rfl⟩ := Nat.exists_eq_add_of_le least
    rw [lead?_three m (by omega), Option.some.injEq] at h
    subst h
    exact ⟨sound_three (by omega), rfl⟩
  · obtain ⟨m, rfl⟩ := Nat.exists_eq_add_of_le least
    rw [lead?_four m (by omega), Option.some.injEq] at h
    subst h
    exact ⟨sound_four (by omega), rfl⟩

section

variable {p : Pending} {b : UInt8}

theorem Pending.Sound.range (h : p.Sound) (least : p.least ≤ b) (greatest : b ≤ p.greatest) :
    p.least.toNat ≤ b.toNat ∧ b.toNat ≤ p.greatest.toNat ∧ 0x80 ≤ b.toNat ∧ b.toNat ≤ 0xBF := by
  have hleast := UInt8.le_iff_toNat_le.mp least
  have hgreatest := UInt8.le_iff_toNat_le.mp greatest
  exact ⟨hleast, hgreatest, Nat.le_trans h.least hleast, Nat.le_trans hgreatest h.greatest⟩

/-- **A byte goes on** with the character, and what it can become from there on is spelt. -/
theorem Pending.Sound.more (h : p.Sound) (least : p.least ≤ b) (greatest : b ≤ p.greatest)
    (missing : p.missing ≠ 1) :
    Pending.Sound ⟨p.bytes ++ [b], p.value * 64 + (b.toNat - 0x80), p.missing - 1, 0x80, 0xBF⟩ := by
  obtain ⟨hleast, hgreatest, hlow, hhigh⟩ := h.range least greatest
  obtain ⟨m, hm⟩ : ∃ m, p.missing = m + 2 := ⟨p.missing - 2, by have := h.missing; omega⟩
  refine ⟨by simp [hm], Nat.le_refl _, Nat.le_refl _, fun n value _ _ => ?_⟩
  have hvalue : front (m + 1) n = p.value * 64 + (b.toNat - 0x80) := by simpa [hm] using value
  have hback : front (m + 2) n = p.value := by
    rw [front, hvalue]
    omega
  have hbyte : 0x80 + front (m + 1) n % 64 = b.toNat := by
    rw [hvalue]
    omega
  have hspells : encodeChar (Char.ofNat n)
      = p.bytes ++ UInt8.ofNat (0x80 + front (m + 1) n % 64) :: tail (m + 1) n := by
    have hall := h.spells n
    simp only [hm, Nat.add_succ_sub_one, hbyte] at hall
    exact hall hback hleast hgreatest
  rw [hspells, hbyte, UInt8.ofNat_toNat, hm, List.append_assoc]
  rfl

/-- **The last byte.** The number that was put together is that of the character. -/
theorem Pending.Sound.last (h : p.Sound) (least : p.least ≤ b) (greatest : b ≤ p.greatest)
    (missing : p.missing = 1) :
    encodeChar (Char.ofNat (p.value * 64 + (b.toNat - 0x80))) = p.bytes ++ [b] := by
  obtain ⟨hleast, hgreatest, hlow, hhigh⟩ := h.range least greatest
  have hvalue : front 1 (p.value * 64 + (b.toNat - 0x80)) = p.value := by
    simp only [front]
    omega
  have hbyte : 0x80 + front 0 (p.value * 64 + (b.toNat - 0x80)) % 64 = b.toNat := by
    simp only [front]
    omega
  have hspells := h.spells (p.value * 64 + (b.toNat - 0x80))
  simp only [missing, Nat.sub_self, tail, hbyte, UInt8.ofNat_toNat] at hspells
  exact hspells hvalue hleast hgreatest

end

/-! ## The pass -/

namespace Scan

/-- The bytes that were read so far. -/
def bytes (s : Scan) : Bytes :=
  s.done.reverse.flatMap Piece.bytes ++ (s.pending.elim [] Pending.bytes)

def Sound (s : Scan) : Prop :=
  ∀ p, s.pending = some p → p.Sound

theorem start_sound (done : List Piece) (b : UInt8) :
    (start done b).Sound ∧ (start done b).bytes = done.reverse.flatMap Piece.bytes ++ [b] := by
  unfold start
  split
  · next h =>
    have hb : b.toNat < 0x80 := UInt8.lt_iff_toNat_lt.mp h
    exact ⟨nofun, by simp [bytes, Piece.bytes, encodeChar_one hb]⟩
  · cases hlead : lead? b with
    | none => exact ⟨nofun, by simp [bytes, Piece.bytes]⟩
    | some p =>
      obtain ⟨sound, hbytes⟩ := sound_of_lead? hlead
      refine ⟨?_, by simp [bytes, hbytes]⟩
      rintro q ⟨⟩
      exact sound

/-- **One step** reads one byte. -/
theorem step_sound {s : Scan} (h : s.Sound) (b : UInt8) :
    (s.step b).Sound ∧ (s.step b).bytes = s.bytes ++ [b] := by
  unfold step
  cases hpending : s.pending with
  | none =>
    obtain ⟨sound, hbytes⟩ := start_sound s.done b
    refine ⟨sound, ?_⟩
    rw [hbytes]
    simp [bytes, hpending]
  | some p =>
    have hp := h p hpending
    by_cases inside : p.least ≤ b ∧ b ≤ p.greatest
    · by_cases missing : p.missing = 1
      · have hlast := hp.last inside.1 inside.2 missing
        simp only [inside, missing, and_self, if_true]
        exact ⟨nofun, by simp [bytes, Piece.bytes, hpending, hlast]⟩
      · simp only [inside, missing, and_self, if_true, if_false]
        refine ⟨?_, by simp [bytes, hpending]⟩
        rintro q ⟨⟩
        exact hp.more inside.1 inside.2 missing
    · -- What was pending becomes a broken piece.
      obtain ⟨sound, hbytes⟩ := start_sound (.broken p.bytes :: s.done) b
      simp only [inside, if_false]
      refine ⟨sound, ?_⟩
      rw [hbytes]
      simp [bytes, Piece.bytes, hpending]

theorem bytes_foldl {s : Scan} (h : s.Sound) (bytes : Bytes) :
    (bytes.foldl step s).bytes = s.bytes ++ bytes := by
  induction bytes generalizing s with
  | nil => exact (List.append_nil _).symm
  | cons b rest ih =>
    obtain ⟨sound, hbytes⟩ := step_sound h b
    rw [List.foldl_cons, ih sound, hbytes, List.append_assoc]
    rfl

theorem flatMap_bytes_finish (s : Scan) : s.finish.flatMap Piece.bytes = s.bytes := by
  unfold finish bytes
  cases s.pending with
  | none => exact (List.append_nil _).symm
  | some p => simp [Piece.bytes]

end Scan

/-- **Nothing is lost.** The pieces, put together, are the byte string. -/
theorem flatMap_bytes_pieces (bytes : Bytes) : (pieces bytes).flatMap Piece.bytes = bytes := by
  have hstart : Scan.Sound ⟨[], none⟩ := nofun
  rw [pieces, Scan.flatMap_bytes_finish, Scan.bytes_foldl hstart]
  rfl

/-! ## Strict reading -/

theorem chars_of_firstFault_eq_none {index : Nat} {ps : List Piece}
    (h : firstFault index ps = none) : ∃ chars : List Char, ps = chars.map Piece.char := by
  induction ps generalizing index with
  | nil => exact ⟨[], rfl⟩
  | cons piece rest ih =>
    cases piece with
    | char c =>
      obtain ⟨chars, rfl⟩ := ih h
      exact ⟨c :: chars, rfl⟩
    | broken bs => cases h
    | unfinished bs => cases h

/-- **What is read strictly** are the bytes of a text, as that text. -/
theorem decode_eq_ok_iff {bytes : Bytes} {text : String} :
    decode bytes = .ok text ↔ encode text = bytes := by
  constructor
  · intro h
    unfold decode at h
    cases hfault : firstFault 0 (pieces bytes) with
    | some e => simp [hfault] at h
    | none =>
      obtain ⟨chars, hchars⟩ := chars_of_firstFault_eq_none hfault
      have hrepaired : (pieces bytes).map Piece.repaired = chars := by
        rw [hchars, List.map_map]
        exact List.map_id' chars
      simp only [hfault, hrepaired, Except.ok.injEq] at h
      rw [← h, encode, String.toList_ofList, ← flatMap_bytes_pieces bytes, hchars, List.flatMap_map]
      rfl
  · rintro rfl
    exact decode_encode text

/-- What is not read is no text. -/
theorem exists_decode_eq_error_iff {bytes : Bytes} :
    (∃ e, decode bytes = .error e) ↔ ¬ ∃ text, encode text = bytes := by
  simp only [← decode_eq_ok_iff]
  cases decode bytes <;> simp

end Utf8

end FixtureSuite
