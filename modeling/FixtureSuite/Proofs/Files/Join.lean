import FixtureSuite.Files.FileTree

/-!
# The path of an entry

A directory names its entries, and everything else that is done with an entry is done with a path:
the directory's, joined with the name. Here is what such a path looks like to its readers. For a
look-up it is the way to the directory and then the name (`segments_join`); for anything that works
with components it is the directory's components and the name (`components_join`), so its last name
is the name, and the entries of one directory are in the order of their names.
-/

namespace FixtureSuite

/-! ## Names -/

section

variable {n : Name}

theorem not_isBlank_of_isName (h : isName n = true) : Path.isBlank n = false := by
  simp only [isName, Bool.and_eq_true, Bool.not_eq_true'] at h
  exact h.1.1.1.1

theorem ne_nil_of_isName (h : isName n = true) : n ≠ [] := by
  rintro rfl
  exact absurd (not_isBlank_of_isName h) (by decide)

theorem ne_dotDot_of_isName (h : isName n = true) : n ≠ Path.dotDot := by
  simp only [isName, Bool.and_eq_true, bne_iff_ne] at h
  exact h.1.1.1.2

theorem slash_notMem_of_isName (h : isName n = true) : Path.slash ∉ n := by
  simp only [isName, Bool.and_eq_true, Bool.not_eq_true', List.contains_eq_mem,
    decide_eq_false_iff_not] at h
  exact h.1.1.2

theorem zero_notMem_of_isName (h : isName n = true) : (0 : UInt8) ∉ n := by
  simp only [isName, Bool.and_eq_true, Bool.not_eq_true', List.contains_eq_mem,
    decide_eq_false_iff_not] at h
  exact h.1.2

theorem length_le_of_isName (h : isName n = true) : n.length ≤ maxName := by
  simp only [isName, Bool.and_eq_true, decide_eq_true_eq] at h
  exact h.2

end

namespace Path

/-! ## Segments -/

theorem segmentsOf_cons (b : UInt8) (bytes : Bytes) :
    segmentsOf (b :: bytes) = consSegment b (segmentsOf bytes) := rfl

theorem segmentsOf_ne_nil (bytes : Bytes) : segmentsOf bytes ≠ [] := by
  cases bytes with
  | nil => decide
  | cons b rest =>
    rw [segmentsOf_cons]
    cases segmentsOf rest with
    | nil => simp [consSegment]
    | cons s more => by_cases h : b = slash <;> simp [consSegment, h]

theorem consSegment_append {b : UInt8} {front : List Bytes} (h : front ≠ []) (back : List Bytes) :
    consSegment b (front ++ back) = consSegment b front ++ back := by
  cases front with
  | nil => exact absurd rfl h
  | cons s more => by_cases hb : b = slash <;> simp [consSegment, hb]

/-- A slash in the middle is a cut. -/
theorem segmentsOf_append_slash (front back : Bytes) :
    segmentsOf (front ++ slash :: back) = segmentsOf front ++ segmentsOf back := by
  induction front with
  | nil =>
    rw [List.nil_append, segmentsOf_cons]
    cases h : segmentsOf back with
    | nil => exact absurd h (segmentsOf_ne_nil back)
    | cons s more => simp [consSegment, segmentsOf]
  | cons b rest ih =>
    rw [List.cons_append, segmentsOf_cons, ih, consSegment_append (segmentsOf_ne_nil rest),
      segmentsOf_cons]

theorem segmentsOf_of_slash_notMem {bytes : Bytes} (h : slash ∉ bytes) :
    segmentsOf bytes = [bytes] := by
  induction bytes with
  | nil => rfl
  | cons b rest ih =>
    obtain ⟨hb, hrest⟩ : slash ≠ b ∧ slash ∉ rest := by simpa using h
    rw [segmentsOf_cons, ih hrest]
    simp [consSegment, Ne.symm hb]

theorem segments_of_isName {n : Name} (hn : isName n = true) : segments ⟨n⟩ = [n] :=
  segmentsOf_of_slash_notMem (slash_notMem_of_isName hn)

/-- A path whose first segment is blank starts with a slash, or is empty. -/
theorem isAbsolute_of_segments {p : Path} {rest : List Bytes} (h : p.segments = [] :: rest)
    (hne : p.bytes ≠ []) : p.isAbsolute = true := by
  obtain ⟨bytes⟩ := p
  cases bytes with
  | nil => exact absurd rfl hne
  | cons b tail =>
    by_cases hb : b = slash
    · simp [isAbsolute, hb]
    · -- Any other byte is part of the first segment.
      rw [segments, segmentsOf_cons] at h
      cases htail : segmentsOf tail <;> simp [consSegment, htail, hb] at h

/-- A relative path that is not empty begins with a segment that is not empty. -/
theorem segments_of_relative {p : Path} (relative : p.isAbsolute = false) (hne : p.bytes ≠ []) :
    ∃ first rest, p.segments = first :: rest ∧ first ≠ [] := by
  obtain ⟨first, rest, h⟩ := List.exists_cons_of_ne_nil (segmentsOf_ne_nil p.bytes)
  refine ⟨first, rest, h, ?_⟩
  rintro rfl
  rw [isAbsolute_of_segments h hne] at relative
  cases relative

/-! ## The path of an entry -/

section

variable {base : Path} {n : Name}

theorem isAbsolute_of_isName (hn : isName n = true) : isAbsolute ⟨n⟩ = false := by
  cases n with
  | nil => rfl
  | cons b rest =>
    have h : slash ≠ b := fun h => slash_notMem_of_isName hn (by simp [h])
    simpa [isAbsolute] using Ne.symm h

/-- A path in a directory is the directory's text, one slash and the name; the slash may be the
directory's own. -/
theorem bytes_join (hbase : base.bytes ≠ []) (hn : isName n = true) :
    ∃ front, (base.join ⟨n⟩).bytes = front ++ slash :: n ∧
      (base.bytes = front ∨ base.bytes = front ++ [slash]) := by
  unfold join
  rw [isAbsolute_of_isName hn]
  by_cases h : base.bytes.getLast? = some slash
  · obtain ⟨front, hfront⟩ := List.getLast?_eq_some_iff.mp h
    refine ⟨front, ?_, .inr hfront⟩
    simp [hfront]
  · exact ⟨base.bytes, by simp [h, hbase], .inl rfl⟩

/-- **The way to an entry.** It is the way to the directory, perhaps without a blank end, and then
the name. -/
theorem segments_join (hbase : base.bytes ≠ []) (hn : isName n = true) :
    ∃ front, front ≠ [] ∧ (base.join ⟨n⟩).segments = front ++ [n] ∧
      (base.segments = front ∨ base.segments = front ++ [[]]) := by
  obtain ⟨front, hjoin, hfront⟩ := bytes_join hbase hn
  refine ⟨segmentsOf front, segmentsOf_ne_nil front, ?_, ?_⟩
  · rw [segments, hjoin, segmentsOf_append_slash,
      segmentsOf_of_slash_notMem (slash_notMem_of_isName hn)]
  · rcases hfront with h | h
    · exact .inl (by rw [segments, h])
    · exact .inr (by rw [segments, h, segmentsOf_append_slash]; rfl)

theorem isAbsolute_join (hbase : base.bytes ≠ []) (hn : isName n = true) :
    (base.join ⟨n⟩).isAbsolute = base.isAbsolute := by
  obtain ⟨bytes⟩ := base
  cases bytes with
  | nil => exact absurd rfl hbase
  | cons b rest =>
    unfold join
    rw [isAbsolute_of_isName hn]
    by_cases h : (b :: rest).getLast? = some slash <;> simp [isAbsolute, h]

theorem zero_mem_join (hbase : base.bytes ≠ []) (hn : isName n = true) :
    (0 : UInt8) ∈ (base.join ⟨n⟩).bytes ↔ (0 : UInt8) ∈ base.bytes := by
  have hzero : (0 : UInt8) ≠ slash := by decide
  obtain ⟨front, hjoin, h | h⟩ := bytes_join hbase hn <;>
    simp [hjoin, h, hzero, zero_notMem_of_isName hn]

/-- The components of an entry's path. -/
theorem components_join (hbase : base.bytes ≠ []) (hn : isName n = true) :
    (base.join ⟨n⟩).components = base.components ++ [.name n] := by
  have hname : componentOf? n = some (.name n) := by
    simp [componentOf?, not_isBlank_of_isName hn, ne_dotDot_of_isName hn]
  have hempty : componentOf? [] = none := rfl
  obtain ⟨front, hne, hjoin, hbase'⟩ := segments_join hbase hn
  obtain ⟨first, rest, rfl⟩ := List.exists_cons_of_ne_nil hne
  -- A blank end of the directory's path is no component of either path.
  rcases hbase' with h | h <;>
    simp [components, hjoin, h, isAbsolute_join hbase hn, hname, hempty]

theorem fileName?_join (hbase : base.bytes ≠ []) (hn : isName n = true) :
    (base.join ⟨n⟩).fileName? = some n := by
  simp [fileName?, components_join hbase hn]

theorem join_injective {m : Name} (hbase : base.bytes ≠ []) (hn : isName n = true)
    (hm : isName m = true) (h : base.join ⟨n⟩ = base.join ⟨m⟩) : n = m := by
  have := congrArg fileName? h
  rwa [fileName?_join hbase hn, fileName?_join hbase hm, Option.some.injEq] at this

theorem append_le_append_iff (front a b : List Bytes) : front ++ a ≤ front ++ b ↔ a ≤ b := by
  induction front with
  | nil => rfl
  | cons c rest ih => simp [List.cons_le_cons_iff, List.lt_irrefl, ih]

/-- **Entries by name.** In one directory, the order of paths is the order of names. -/
theorem le_join {m : Name} (hbase : base.bytes ≠ []) (hn : isName n = true)
    (hm : isName m = true) : le (base.join ⟨n⟩) (base.join ⟨m⟩) = decide (n ≤ m) := by
  have hname : [3 :: n] ≤ [3 :: m] ↔ n ≤ m := by
    have hle : n ≤ m ↔ n < m ∨ n = m := List.le_iff_lt_or_eq
    rw [List.cons_le_cons_iff, hle]
    simp
  simp only [le, components_join hbase hn, components_join hbase hm, List.map_append,
    List.map_cons, List.map_nil, Component.key, append_le_append_iff, hname]

end

end Path

end FixtureSuite
