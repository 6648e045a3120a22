import Mathlib.Data.List.Basic
import FixtureSuite.Proofs.Files.Dotted
import FixtureSuite.Proofs.Target.Execution
import FixtureSuite.Proofs.Text.Pieces

/-!
# Refusing a text and repairing it

A fixture that is not UTF-8 is refused, and an output that is not UTF-8 is repaired. Both readers
look at the same pieces, so they agree on where a byte string stops being a text: the strict one
names this place, and the lossy one puts its first U+FFFD there.

That the place is as far to the right as it can be is a fact about the pass. A text at the beginning
of a byte string leaves nothing pending, so it comes out as its characters, and what follows it is
cut as if it stood alone (`pieces_encode_append`). Every text that the bytes begin with is therefore
among the first pieces, in front of the first one that is no character.
-/

namespace FixtureSuite

namespace Utf8

/-! ## A text in front -/

/-- The scan as it stands if some pieces were completed before. -/
def Scan.behind (s : Scan) (earlier : List Piece) : Scan :=
  ⟨s.done ++ earlier, s.pending⟩

theorem start_behind (done earlier : List Piece) (b : UInt8) :
    Scan.start (done ++ earlier) b = (Scan.start done b).behind earlier := by
  unfold Scan.start
  split
  · rfl
  · cases lead? b <;> rfl

/-- **One step** does not look at what was completed before. -/
theorem step_behind (s : Scan) (earlier : List Piece) (b : UInt8) :
    (s.behind earlier).step b = (s.step b).behind earlier := by
  obtain ⟨done, _ | p⟩ := s
  · exact start_behind done earlier b
  · by_cases inside : p.least ≤ b ∧ b ≤ p.greatest
    · by_cases missing : p.missing = 1 <;> simp [Scan.step, Scan.behind, inside, missing]
    · have hstart := start_behind (.broken p.bytes :: done) earlier b
      simpa [Scan.step, Scan.behind, inside] using hstart

theorem foldl_behind (s : Scan) (earlier : List Piece) (bytes : Bytes) :
    bytes.foldl Scan.step (s.behind earlier) = (bytes.foldl Scan.step s).behind earlier := by
  induction bytes generalizing s with
  | nil => rfl
  | cons b rest ih => rw [List.foldl_cons, step_behind, ih, List.foldl_cons]

theorem finish_behind (s : Scan) (earlier : List Piece) :
    (s.behind earlier).finish = earlier.reverse ++ s.finish := by
  obtain ⟨done, _ | p⟩ := s <;> simp [Scan.finish, Scan.behind]

/-- **A text in front.** Its pieces are its characters, and what follows is cut as if it stood
alone. -/
theorem pieces_encode_append (text : String) (back : Bytes) :
    pieces (encode text ++ back) = text.toList.map Piece.char ++ pieces back := by
  have hstart : (⟨(text.toList.map Piece.char).reverse ++ [], none⟩ : Scan)
      = Scan.behind ⟨[], none⟩ (text.toList.map Piece.char).reverse := by
    simp [Scan.behind]
  rw [pieces, encode, List.foldl_append, foldl_step_encodeChars, hstart, foldl_behind,
    finish_behind, List.reverse_reverse]
  rfl

theorem map_char_injective : Function.Injective (List.map Piece.char) :=
  List.map_injective_iff.mpr fun _ _ h => Piece.char.inj h

/-- A text begins with another one if its bytes do. -/
theorem encode_prefix_iff {a b : String} : encode a <+: encode b ↔ a.toList <+: b.toList := by
  constructor
  · rintro ⟨back, hback⟩
    have hpieces := congrArg pieces hback
    rw [pieces_encode_append, pieces_encode] at hpieces
    -- What follows the first text is made of characters too, as all of it is.
    obtain ⟨front, rest, hsplit, hfront, -⟩ := List.map_eq_append_iff.mp hpieces.symm
    exact ⟨rest, by rw [hsplit, map_char_injective hfront]⟩
  · rintro ⟨back, hback⟩
    refine ⟨back.flatMap encodeChar, ?_⟩
    rw [encode, encode, ← hback, List.flatMap_append]

/-! ## The first fault -/

/-- The place that a decoding error names. -/
def DecodeError.index : DecodeError → Nat
  | .invalid _ index => index
  | .incomplete index => index

/-- The place is what the message ends in. -/
theorem DecodeError.message_index (e : DecodeError) :
    ∃ what, e.message = what ++ " from index " ++ toString e.index := by
  cases e with
  | invalid length index =>
    have hwords : " bytes from index " = " bytes" ++ " from index " := by decide
    refine ⟨"invalid utf-8 sequence of " ++ toString length ++ " bytes", ?_⟩
    show "invalid utf-8 sequence of " ++ toString length ++ " bytes from index " ++ toString index
      = _
    rw [hwords, ← String.append_assoc]
    rfl
  | incomplete index =>
    have hwords : "incomplete utf-8 byte sequence from index "
        = "incomplete utf-8 byte sequence" ++ " from index " := by decide
    refine ⟨"incomplete utf-8 byte sequence", ?_⟩
    show "incomplete utf-8 byte sequence from index " ++ toString index = _
    rw [hwords]
    rfl

theorem length_encodeChar (c : Char) : (encodeChar c).length = c.utf8Size := by
  have hle : ∀ m : UInt32, c.val ≤ m ↔ c.toNat < m.toNat + 1 := fun m =>
    UInt32.le_iff_toNat_le.trans Nat.lt_succ_iff.symm
  by_cases one : c.toNat < 0x80
  · simp [encodeChar, Char.utf8Size, hle, one]
  by_cases two : c.toNat < 0x800
  · simp [encodeChar, Char.utf8Size, hle, one, two]
  by_cases three : c.toNat < 0x10000
  · simp [encodeChar, Char.utf8Size, hle, one, two, three]
  · simp [encodeChar, Char.utf8Size, hle, one, two, three]

/-- The place that is found is the one behind the characters in front. -/
theorem firstFault_eq_some {index : Nat} {ps : List Piece} {e : DecodeError}
    (h : firstFault index ps = some e) :
    ∃ (chars : List Char) (fault : Piece) (rest : List Piece),
      ps = chars.map Piece.char ++ fault :: rest ∧ (∀ c, fault ≠ .char c) ∧
        e.index = index + (chars.flatMap encodeChar).length := by
  induction ps generalizing index with
  | nil => cases h
  | cons piece more ih =>
    cases piece with
    | char c =>
      obtain ⟨chars, fault, rest, rfl, hfault, hindex⟩ := ih h
      refine ⟨c :: chars, fault, rest, rfl, hfault, ?_⟩
      rw [hindex, List.flatMap_cons, List.length_append, length_encodeChar, Nat.add_assoc]
    | broken bytes =>
      cases h
      exact ⟨[], .broken bytes, more, rfl, nofun, rfl⟩
    | unfinished bytes =>
      cases h
      exact ⟨[], .unfinished bytes, more, rfl, nofun, rfl⟩

/-- Characters that the pieces begin with stand in front of the first fault. -/
theorem prefix_of_map_char {chars chars' : List Char} {fault : Piece} {rest back : List Piece}
    (hfault : ∀ c, fault ≠ .char c)
    (h : chars'.map Piece.char ++ back = chars.map Piece.char ++ fault :: rest) :
    chars' <+: chars := by
  induction chars' generalizing chars with
  | nil => exact List.nil_prefix
  | cons c' more ih =>
    cases chars with
    | nil => exact absurd (List.cons.inj h).1.symm (hfault c')
    | cons c chars =>
      obtain ⟨hhead, htail⟩ := List.cons.inj h
      rw [Piece.char.inj hhead]
      exact (List.prefix_cons_inj c).mpr (ih htail)

/-- The longest text that a byte string begins with. -/
structure Opens (text : String) (bytes : Bytes) : Prop where
  begins : encode text <+: bytes
  longest : ∀ other, encode other <+: bytes → (encode other).length ≤ (encode text).length

/-- **What is not read strictly.** The error names the place behind the longest text that the bytes
begin with, and when they are repaired, this text is followed by U+FFFD. -/
theorem opens_of_decode_eq_error {bytes : Bytes} {e : DecodeError} (h : decode bytes = .error e) :
    ∃ text more : String, Opens text bytes ∧ e.index = (encode text).length ∧
      decodeLossy bytes = text ++ "\uFFFD" ++ more := by
  have hfault : firstFault 0 (pieces bytes) = some e := by
    unfold decode at h
    cases hfault : firstFault 0 (pieces bytes) with
    | none => simp [hfault] at h
    | some e' => simpa [hfault] using h
  obtain ⟨chars, fault, rest, hpieces, notChar, hindex⟩ := firstFault_eq_some hfault
  have htext : encode (String.ofList chars) = chars.flatMap encodeChar := by
    rw [encode, String.toList_ofList]
  refine ⟨String.ofList chars, String.ofList (rest.map Piece.repaired), ⟨?_, ?_⟩, ?_, ?_⟩
  · rw [htext, ← flatMap_bytes_pieces bytes, hpieces, List.flatMap_append, List.flatMap_map]
    exact List.prefix_append _ _
  · rintro other ⟨back, rfl⟩
    rw [pieces_encode_append] at hpieces
    have hprefix : encode other <+: encode (String.ofList chars) := by
      rw [encode_prefix_iff, String.toList_ofList]
      exact prefix_of_map_char notChar hpieces
    exact hprefix.length_le
  · rw [hindex, htext, Nat.zero_add]
  · have hrepaired : fault.repaired = '\uFFFD' := by
      cases fault with
      | char c => exact absurd rfl (notChar c)
      | broken bytes => rfl
      | unfinished bytes => rfl
    have hchars : (chars.map Piece.char).map Piece.repaired = chars := by
      rw [List.map_map]
      exact List.map_id' chars
    apply String.toList_inj.mp
    rw [decodeLossy, hpieces, List.map_append, List.map_cons, hchars, hrepaired]
    simp [String.toList_append]

/-- What is read strictly is what the bytes are repaired to, if that spells them again. -/
theorem decode_eq_ok_iff_decodeLossy {bytes : Bytes} {text : String} :
    decode bytes = .ok text ↔ encode (decodeLossy bytes) = bytes ∧ text = decodeLossy bytes := by
  rw [decode_eq_ok_iff]
  constructor
  · rintro rfl
    rw [decodeLossy_encode]
    exact ⟨rfl, rfl⟩
  · rintro ⟨hbytes, rfl⟩
    exact hbytes

end Utf8

/-! ## Fixtures and outputs -/

/-- The target, started on a fixture, writes some bytes and ends. -/
def Launcher.Writes (t : FileTree) (l : Launcher) (path : Path) (bytes : Bytes) : Prop :=
  ∃ text process outcome, readFixture t path = .ok text ∧ l.start t = .ok process ∧
    process (Utf8.encode text) = .ok outcome ∧ outcome.stdout = bytes

/-- What the target writes is kept repaired. -/
theorem Launcher.Writes.execute {t : FileTree} {l : Launcher} {path : Path} {bytes : Bytes}
    (h : l.Writes t path bytes) :
    ∃ r, l.execute t path = .ok r ∧ r.stdout = Utf8.decodeLossy bytes := by
  obtain ⟨text, process, outcome, hread, hstart, hprocess, rfl⟩ := h
  exact ⟨outcome.toResult, execute_eq_ok_iff.mpr ⟨text, hread, process, hstart, outcome, hprocess,
    rfl⟩, rfl⟩

theorem readFixture_of_read {t : FileTree} {path : Path} {bytes : Bytes}
    (held : t.read path = .ok bytes) :
    readFixture t path = (Utf8.decode bytes).mapError (.decode path) := by
  rw [readFixture_eq, held, mapError_ok, ok_bind]

/-- **Strict and lossy reading.** A file holds some bytes, and a target writes the same bytes; what
is captured of it is a text. As a fixture the file is read exactly if this text spells the bytes
again, and then it is read as this text. Otherwise the file is no text, and the error names the place
behind the longest text that the bytes begin with; the captured text begins with that text and goes
on with U+FFFD. The captured text itself, in a file of any tree, is always read back. -/
theorem fixture_agrees_with_output (t t' : FileTree) (path path' : Path) (l : Launcher)
    (bytes : Bytes) (held : t.read path = .ok bytes) (writes : l.Writes t' path' bytes) :
    ∃ r, l.execute t' path' = .ok r ∧
      (∀ text, readFixture t path = .ok text ↔ Utf8.encode r.stdout = bytes ∧ text = r.stdout) ∧
      (Utf8.encode r.stdout ≠ bytes → ∃ (cause : Utf8.DecodeError) (text what more : String),
        readFixture t path = .error (.decode path cause) ∧
          Utf8.Opens text bytes ∧ cause.index = (Utf8.encode text).length ∧
          cause.message = what ++ " from index " ++ toString cause.index ∧
          r.stdout = text ++ "\uFFFD" ++ more) ∧
      ∀ (u : FileTree) (saved : Path), u.read saved = .ok (Utf8.encode r.stdout) →
        readFixture u saved = .ok r.stdout := by
  obtain ⟨r, executed, captured⟩ := writes.execute
  have hread := readFixture_of_read held
  refine ⟨r, executed, fun text => ?_, fun differs => ?_, fun u saved hsaved => ?_⟩
  · rw [captured, ← Utf8.decode_eq_ok_iff_decodeLossy, hread, mapError_eq_ok_iff]
  · obtain ⟨cause, refused⟩ : ∃ cause, Utf8.decode bytes = .error cause := by
      rw [Utf8.exists_decode_eq_error_iff]
      rintro ⟨text, rfl⟩
      rw [captured, Utf8.decodeLossy_encode] at differs
      exact differs rfl
    obtain ⟨text, more, opens, hindex, hlossy⟩ := Utf8.opens_of_decode_eq_error refused
    obtain ⟨what, hmessage⟩ := cause.message_index
    refine ⟨cause, text, what, more, ?_, opens, hindex, hmessage, captured.trans hlossy⟩
    rw [hread, refused, mapError_error]
  · rw [readFixture_of_read hsaved, Utf8.decode_encode, mapError_ok]

/-- A euro sign, cut short between two letters. -/
def cutShort : Bytes := [0x61, 0xE2, 0x82, 0x62]

/-- A tree with a file that holds these bytes, a program that writes them, and an empty fixture. -/
def cuttingShort : FileTree where
  entries := [([Utf8.encode "f"], .file cutShort), ([Utf8.encode "empty"], .file []),
    ([Utf8.encode "write"], .program [] fun _ => .ok ⟨.exited 0, cutShort, []⟩)]
  distinct := by decide
  named := by decide

/-- The target that is started there. -/
def cutter : Launcher := ⟨.ofString "./write", [], []⟩

theorem writes_cutShort : cutter.Writes cuttingShort (.ofString "empty") cutShort := by
  have read : cuttingShort.read (.ofString "empty") = .ok [] :=
    FileTree.read_of_entryAt (by decide) rfl
  have program : cuttingShort.program cutter.program = .ok fun _ => .ok ⟨.exited 0, cutShort, []⟩ :=
    FileTree.program_dotted (n := Utf8.encode "write") (by decide) rfl
  have start : cutter.start cuttingShort = .ok fun _ => .ok ⟨.exited 0, cutShort, []⟩ :=
    Launcher.start_of_program (l := cutter) (by decide) (by decide) program
  exact ⟨"", _, _, by rw [readFixture_of_read read]; rfl, start, rfl, rfl⟩

/-- The file is refused behind the first letter, and the output keeps both letters. -/
theorem fixture_agrees_with_output_cutShort :
    cuttingShort.read (.ofString "f") = .ok cutShort ∧
      cutter.Writes cuttingShort (.ofString "empty") cutShort ∧
      ∃ r cause, cutter.execute cuttingShort (.ofString "empty") = .ok r ∧
        r.stdout = "a\uFFFDb" ∧
        readFixture cuttingShort (.ofString "f") = .error (.decode (.ofString "f") cause) ∧
        cause.index = 1 := by
  have held : cuttingShort.read (.ofString "f") = .ok cutShort :=
    FileTree.read_of_entryAt (by decide) rfl
  obtain ⟨r, executed, -, refused, -⟩ := fixture_agrees_with_output cuttingShort cuttingShort
    (.ofString "f") (.ofString "empty") cutter cutShort held writes_cutShort
  obtain ⟨r', executed', captured⟩ := writes_cutShort.execute
  obtain rfl : r = r' := Except.ok.inj (executed.symm.trans executed')
  have shown : r.stdout = "a\uFFFDb" := captured.trans (by decide)
  obtain ⟨cause, text, what, more, hread, -⟩ := refused (by rw [shown]; decide)
  refine ⟨held, writes_cutShort, r, cause, executed, shown, hread, ?_⟩
  have decoded : Utf8.decode cutShort = .error (.invalid 2 1) := by decide
  rw [readFixture_of_read held, decoded] at hread
  cases hread
  rfl

end FixtureSuite
