import FixtureSuite.Proofs.Files.Standing
import Mathlib.Data.List.TakeWhile

/-!
# A path and the same path behind `./`

A relative path can be written with `./` in front of it. The two spellings lead to the same place
(`locate_dotted`), provided that there is something behind the `./`, as the empty path leads nowhere
and `./` to the working directory, and that the longer spelling is not too long.

They need not have the same parent. That of `run.toml` is the empty path and that of `./run.toml` is
`.`, and for `./run.toml` and `././run.toml` it is `.` both times. What is joined to the parents is
again a path and the same path behind `./`, or the same path twice (`join_parent?_dotted`).
-/

namespace FixtureSuite

namespace Path

variable {p q base : Path}

/-- The path behind `./`. -/
def dotted (p : Path) : Path :=
  ⟨dot ++ slash :: p.bytes⟩

theorem segments_dotted (p : Path) : p.dotted.segments = dot :: p.segments :=
  segmentsOf_append_slash dot p.bytes

theorem isAbsolute_dotted (p : Path) : p.dotted.isAbsolute = false := rfl

theorem dotted_bytes_ne_nil (p : Path) : p.dotted.bytes ≠ [] := nofun

theorem length_dotted (p : Path) : p.dotted.bytes.length = p.bytes.length + 2 := rfl

theorem zero_mem_dotted : (0 : UInt8) ∈ p.dotted.bytes ↔ (0 : UInt8) ∈ p.bytes := by
  show (0 : UInt8) ∈ 0x2E :: 0x2F :: p.bytes ↔ _
  simp

theorem join_of_relative (relative : q.isAbsolute = false) :
    base.join q = if base.bytes = [] ∨ base.bytes.getLast? = some slash
      then ⟨base.bytes ++ q.bytes⟩ else ⟨base.bytes ++ slash :: q.bytes⟩ :=
  if_neg (by simp [relative])

/-- The slash of a `./` with nothing behind it is the one that joining needs. -/
theorem join_dotted (relative : q.isAbsolute = false) : p.dotted.join q = (p.join q).dotted := by
  have hends : (p.dotted.bytes = [] ∨ p.dotted.bytes.getLast? = some slash) ↔
      (p.bytes = [] ∨ p.bytes.getLast? = some slash) := by
    show (0x2E :: slash :: p.bytes = [] ∨ (0x2E :: slash :: p.bytes).getLast? = some slash) ↔ _
    rcases List.eq_nil_or_concat p.bytes with h | ⟨front, b, h⟩ <;>
      simp [h, List.getLast?_cons]
  rw [join_of_relative relative, join_of_relative relative]
  by_cases h : p.bytes = [] ∨ p.bytes.getLast? = some slash
  · rw [if_pos h, if_pos (hends.mpr h)]
    rfl
  · rw [if_neg h, if_neg (mt hends.mp h)]
    rfl

/-- `.` is what the empty path is behind `./`, but for the slash. -/
theorem join_dot (relative : q.isAbsolute = false) : join ⟨dot⟩ q = (join ⟨[]⟩ q).dotted := by
  rw [join_of_relative relative, join_of_relative relative, if_neg (by decide), if_pos (.inl rfl)]
  rfl

theorem dropWhile_append_of_nil {blanks back : List Bytes} (h : blanks.dropWhile isBlank = []) :
    (blanks ++ back).dropWhile isBlank = back.dropWhile isBlank := by
  simp [List.dropWhile_append, h]

theorem dropWhile_append_of_cons {front back kept : List Bytes} {s : Bytes}
    (h : front.dropWhile isBlank = s :: kept) :
    (front ++ back).dropWhile isBlank = s :: (kept ++ back) := by
  simp [List.dropWhile_append, h]

/-- **The parents of the two spellings.** Either the longer one keeps its `./`, or it has the parent
`.`, and then the parent of the shorter one is `.` too or the empty path. -/
theorem parent?_dotted (relative : p.isAbsolute = false) (hne : p.bytes ≠ [])
    (named : ∃ s ∈ p.segments, isBlank s = false) (h : p.parent? = some base) :
    p.dotted.parent? = some base.dotted ∨
      p.dotted.parent? = some ⟨dot⟩ ∧ (base = ⟨[]⟩ ∨ base = ⟨dot⟩) := by
  obtain ⟨first, rest, hsegments, hfirst⟩ := segments_of_relative relative hne
  have hback : p.dotted.segments = dot :: first :: rest := by rw [segments_dotted, hsegments]
  have hdot : dot ≠ [] := by decide
  unfold parent? at h ⊢
  simp only [hsegments, hback, List.reverse_cons, hfirst, hdot, if_false] at h ⊢
  cases hdrop : rest.reverse.dropWhile isBlank with
  | nil =>
    -- There is one name only, which the longer path has something in front of.
    have hname : isBlank first = false := by
      obtain ⟨s, hs, hcounts⟩ := named
      rw [hsegments] at hs
      rcases List.mem_cons.mp hs with rfl | hs
      · exact hcounts
      · have hblank := List.dropWhile_eq_nil_iff.mp hdrop s (List.mem_reverse.mpr hs)
        rw [hcounts] at hblank
        cases hblank
    have hlonger : (rest.reverse ++ [first]).dropWhile isBlank = [first] := by
      rw [dropWhile_append_of_nil hdrop, List.dropWhile_cons_of_neg (by simp [hname])]
    simp only [hdrop, Option.some.injEq] at h
    rw [hlonger]
    exact .inr ⟨rfl, .inl h.symm⟩
  | cons last before =>
    have hlonger : (rest.reverse ++ [first]).dropWhile isBlank = last :: (before ++ [first]) :=
      dropWhile_append_of_cons hdrop
    simp only [hdrop] at h
    simp only [hlonger]
    cases hkept : before.dropWhile isBlank with
    | nil =>
      -- The parent is the first segment, which counts behind `./` unless it is a `.` itself.
      simp only [hkept, List.reverse_nil, Option.some.injEq] at h
      subst h
      rw [dropWhile_append_of_nil hkept]
      by_cases hblank : isBlank first = true
      · have hfirst' : first = dot := by simpa [isBlank, hfirst] using hblank
        rw [List.dropWhile_cons_of_pos hblank]
        exact .inr ⟨rfl, .inr (congrArg Path.mk hfirst')⟩
      · rw [List.dropWhile_cons_of_neg hblank]
        exact .inl rfl
    | cons s kept =>
      obtain ⟨second, more, hreverse⟩ := List.exists_cons_of_ne_nil
        (List.reverse_ne_nil_iff.mpr (List.cons_ne_nil s kept))
      have hlongest : (s :: (kept ++ [first])).reverse = first :: second :: more := by
        show ((s :: kept) ++ [first]).reverse = _
        rw [List.reverse_append, hreverse]
        rfl
      simp only [hkept, hreverse, Option.some.injEq] at h
      subst h
      rw [dropWhile_append_of_cons hkept, hlongest]
      exact .inl rfl

/-- **What is joined to the parents.** It is again a path and the same path behind `./`, or the same
path twice. -/
theorem join_parent?_dotted (relative : p.isAbsolute = false) (hne : p.bytes ≠ [])
    (named : ∃ s ∈ p.segments, isBlank s = false) (h : p.parent? = some base)
    (inside : q.isAbsolute = false) :
    ∃ base', p.dotted.parent? = some base' ∧
      (base'.join q = (base.join q).dotted ∨
        base'.join q = base.join q ∧ (base.join q).bytes ≠ []) := by
  rcases parent?_dotted relative hne named h with h' | ⟨h', rfl | rfl⟩
  · exact ⟨_, h', .inl (join_dotted inside)⟩
  · exact ⟨_, h', .inl (join_dot inside)⟩
  · refine ⟨_, h', .inr ⟨rfl, ?_⟩⟩
    rw [join_dot inside]
    exact dotted_bytes_ne_nil _

/-- The first segment, if it is not empty, begins as the path does. -/
theorem head?_of_segments {first : Bytes} {rest : List Bytes} (h : p.segments = first :: rest)
    (hfirst : first ≠ []) : first.head? = p.bytes.head? := by
  obtain ⟨bytes⟩ := p
  cases bytes with
  | nil => exact absurd (List.cons.inj h).1.symm hfirst
  | cons b tail =>
    obtain ⟨s, more, htail⟩ := List.exists_cons_of_ne_nil (segmentsOf_ne_nil tail)
    rw [segments, segmentsOf_cons, htail, consSegment] at h
    split at h
    · exact absurd (List.cons.inj h).1.symm hfirst
    · obtain ⟨rfl, -⟩ := List.cons.inj h
      rfl

theorem head?_joinSegments {first : Bytes} (hfirst : first ≠ []) (rest : List Bytes) :
    (joinSegments (first :: rest)).head? = first.head? := by
  obtain ⟨b, tail, rfl⟩ := List.exists_cons_of_ne_nil hfirst
  cases rest <;> rfl

/-- A parent begins as the path does, or is empty. -/
theorem isAbsolute_of_parent? (relative : p.isAbsolute = false) (hne : p.bytes ≠ [])
    (h : p.parent? = some base) : base.isAbsolute = false := by
  obtain ⟨first, rest, hsegments, hfirst⟩ := segments_of_relative relative hne
  have hbegins : ∀ back, isAbsolute ⟨joinSegments (first :: back)⟩ = false := by
    intro back
    rw [isAbsolute, head?_joinSegments hfirst, head?_of_segments hsegments hfirst]
    exact relative
  unfold parent? at h
  simp only [hsegments, hfirst, if_false] at h
  split at h
  · split at h <;> obtain rfl := Option.some.inj h
    · exact hbegins []
    · exact hbegins _
  · obtain rfl := Option.some.inj h
    rfl

theorem isAbsolute_join_of_relative (hbase : base.isAbsolute = false)
    (relative : q.isAbsolute = false) : (base.join q).isAbsolute = false := by
  rw [join_of_relative relative]
  unfold isAbsolute at *
  split <;> cases hbytes : base.bytes <;> simp_all

theorem bytes_join_eq_nil_iff (inside : q.isAbsolute = false) :
    (base.join q).bytes = [] ↔ base.bytes = [] ∧ q.bytes = [] := by
  rw [join_of_relative inside]
  by_cases hbase : base.bytes = []
  · simp [hbase]
  · split <;> simp [hbase]

end Path

/-! ## Looking up -/

namespace FileTree

variable {t : FileTree} {p : Path}

theorem walk_dotted (t : FileTree) (links : Nat) (p : Path) :
    t.walk links t.here p.dotted.segments = t.walk links t.here p.segments := by
  rw [Path.segments_dotted]
  exact walk_of_isBlank t.isDirectory_here rfl p.segments

theorem origin_of_relative (relative : p.isAbsolute = false) (place : Spot) :
    origin place p = place :=
  if_neg (by simp [relative])

/-- **One place.** The longer spelling leads to where the shorter one leads, if it is not too
long. -/
theorem lookUp_dotted (relative : p.isAbsolute = false) (hne : p.bytes ≠ []) :
    t.lookUp p.dotted
      = if p.dotted.bytes.length ≥ maxPath then .error .nameTooLong else t.lookUp p := by
  unfold lookUp
  rw [if_neg (Path.dotted_bytes_ne_nil p), if_neg hne,
    origin_of_relative (Path.isAbsolute_dotted p), origin_of_relative relative, walk_dotted]
  by_cases hlong : p.dotted.bytes.length ≥ maxPath
  · rw [if_pos hlong, if_pos hlong]
  · have hshort : ¬ p.bytes.length ≥ maxPath := by
      rw [Path.length_dotted] at hlong
      omega
    rw [if_neg hlong, if_neg hlong, if_neg hshort]

theorem locate_dotted (relative : p.isAbsolute = false) (hne : p.bytes ≠ [])
    (short : p.dotted.bytes.length < maxPath) : t.locate p.dotted = t.locate p := by
  unfold locate
  rw [lookUp_dotted relative hne, if_neg (Nat.not_le.mpr short)]
  simp only [Path.zero_mem_dotted]

theorem locate_of_long (noNul : (0 : UInt8) ∉ p.bytes) (long : maxPath ≤ p.bytes.length) :
    t.locate p = .error (.os .nameTooLong) := by
  have hne : p.bytes ≠ [] := by
    intro h
    rw [h] at long
    cases long
  rw [locate, if_neg noNul, lookUp, if_neg hne, if_pos long, mapError_error]

theorem read_dotted (relative : p.isAbsolute = false) (hne : p.bytes ≠ [])
    (short : p.dotted.bytes.length < maxPath) : t.read p.dotted = t.read p := by
  rw [read, read, locate_dotted relative hne short]

theorem list_dotted (relative : p.isAbsolute = false) (hne : p.bytes ≠ [])
    (short : p.dotted.bytes.length < maxPath) : t.list p.dotted = t.list p := by
  rw [list, list, locate_dotted relative hne short]

/-- A program in the working directory is found under its name behind `./`. -/
theorem program_dotted {n : Name} {content : Bytes} {behaviour : Behaviour} (hn : isName n = true)
    (h : t.entryAt (n :: t.here) = some (.program content behaviour)) :
    t.program (Path.dotted ⟨n⟩) = .ok behaviour := by
  have hshort : ¬ (Path.dotted ⟨n⟩).bytes.length ≥ maxPath := by
    have hlength := length_le_of_isName hn
    simp only [maxName] at hlength
    rw [Path.length_dotted]
    simp only [maxPath]
    omega
  have hlook : t.lookUp (Path.dotted ⟨n⟩) = .ok (n :: t.here) := by
    rw [lookUp_dotted (Path.isAbsolute_of_isName hn) (ne_nil_of_isName hn), if_neg hshort,
      lookUp_name hn, walkFrom_name hn, h]
  rw [program, hlook, ok_bind, h]

/-- The path of a file that is read holds a name. -/
theorem exists_isBlank_eq_false_of_read {content : Bytes} (relative : p.isAbsolute = false)
    (h : t.read p = .ok content) : ∃ s ∈ p.segments, Path.isBlank s = false := by
  by_contra hnone
  have hblanks : ∀ s ∈ p.segments, Path.isBlank s = true := by
    simpa using hnone
  obtain ⟨place, hplace, hcontent⟩ := read_eq_ok_iff.mp h
  obtain ⟨-, -, hwalk⟩ := lookUp_eq_ok_iff.mp (locate_eq_ok_iff.mp hplace).2
  rw [origin_of_relative relative, walk_blanks maxLinks t.isDirectory_here hblanks,
    Except.ok.injEq] at hwalk
  subst hwalk
  rw [contentAt_of_isDirectory t.isDirectory_here] at hcontent
  cases hcontent

end FileTree

end FixtureSuite
