import FixtureSuite.Proofs.Files.Join
import FixtureSuite.Proofs.Fixture.Exact
import FixtureSuite.Proofs.Text.Repair

/-!
# The kind of a fixture

What is expected of a fixture can be told from the bytes of the name that its path ends in, or from
the characters of a name that is text. The first needs the name found in a path, and a path can be
spelt in many ways: `Path.EndsIn` says by segments what a path ends in, blank ones at its end left
aside, and `fileName?_of_endsIn` that this is the name that is found. The second agrees with the
first because a text begins with another one exactly if its bytes do.

A path that ends in no name expects success, whatever the prefix and even if it is empty.
`Path.Nameless` says which paths these are.
-/

namespace FixtureSuite

namespace Path

variable {p : Path} {s : Bytes}

/-! ## What a path ends in -/

/-- The last segment that counts. -/
def EndsIn (p : Path) (s : Bytes) : Prop :=
  ∃ front blanks, p.segments = front ++ s :: blanks ∧ isBlank s = false ∧
    ∀ b ∈ blanks, isBlank b = true

/-- A path that ends in no name: no segment counts, as in the empty path, `/` and `.`, or the last
one that does is `..`. -/
def Nameless (p : Path) : Prop :=
  (∀ b ∈ p.segments, isBlank b = true) ∨ p.EndsIn dotDot

theorem exists_endsIn_or_blank (p : Path) :
    (∃ s, p.EndsIn s) ∨ ∀ b ∈ p.segments, isBlank b = true := by
  unfold EndsIn
  induction p.segments with
  | nil => exact .inr nofun
  | cons first rest ih =>
    rcases ih with ⟨s, front, blanks, hrest, hs, hblanks⟩ | hblanks
    · exact .inl ⟨s, first :: front, blanks, by rw [hrest]; rfl, hs, hblanks⟩
    · cases hfirst : isBlank first with
      | false => exact .inl ⟨first, [], rest, rfl, hfirst, hblanks⟩
      | true => exact .inr (List.forall_mem_cons.mpr ⟨hfirst, hblanks⟩)

theorem filterMap_componentOf?_of_blank {blanks : List Bytes}
    (h : ∀ b ∈ blanks, isBlank b = true) : blanks.filterMap componentOf? = [] := by
  rw [List.filterMap_eq_nil_iff]
  intro b hb
  rw [componentOf?, if_pos (h b hb)]

/-- An absolute path begins with an empty segment. -/
theorem segments_of_isAbsolute (h : p.isAbsolute = true) : ∃ rest, p.segments = [] :: rest := by
  obtain ⟨_ | ⟨b, tail⟩⟩ := p
  · cases h
  · obtain rfl : b = slash := by simpa [isAbsolute] using h
    exact ⟨segmentsOf tail, segmentsOf_append_slash [] tail⟩

/-- The segment that a path ends in is its last component. -/
theorem EndsIn.components (h : p.EndsIn s) :
    ∃ before, p.components = before ++ (componentOf? s).toList := by
  obtain ⟨front, blanks, hsegments, hs, hblanks⟩ := h
  have hback := filterMap_componentOf?_of_blank hblanks
  unfold Path.components
  cases front with
  | nil =>
    -- The first segment counts, so the path is relative and does not begin with a `.`.
    have relative : p.isAbsolute = false := by
      rw [Bool.eq_false_iff]
      intro h
      obtain ⟨rest, hrest⟩ := segments_of_isAbsolute h
      obtain ⟨rfl, -⟩ := List.cons.inj (hsegments.symm.trans hrest)
      cases hs
    have hdot : s ≠ dot := by
      rintro rfl
      cases hs
    refine ⟨[], ?_⟩
    simp [hsegments, hback, relative, firstComponent?, hdot]
  | cons first front =>
    refine ⟨(firstComponent? p.isAbsolute first).toList ++ front.filterMap componentOf?, ?_⟩
    have hlast : (s :: blanks).filterMap componentOf? = (componentOf? s).toList := by
      rw [List.filterMap_cons, hback]
      cases componentOf? s <;> rfl
    simp only [hsegments, List.cons_append, List.filterMap_append, hlast, List.append_assoc]

/-- **The name that is found** is what the path ends in, unless this is `..`. -/
theorem fileName?_of_endsIn (h : p.EndsIn s) :
    p.fileName? = if s = dotDot then none else some s := by
  obtain ⟨before, hcomponents⟩ := h.components
  obtain ⟨-, -, -, hs, -⟩ := h
  unfold fileName?
  rw [hcomponents, componentOf?, hs]
  by_cases hup : s = dotDot
  · simp [hup]
  · simp [hup]

/-- Without a segment that counts there is no name. -/
theorem fileName?_of_blank (h : ∀ b ∈ p.segments, isBlank b = true) : p.fileName? = none := by
  obtain ⟨first, rest, hsegments⟩ := List.exists_cons_of_ne_nil (segmentsOf_ne_nil p.bytes)
  have hsplit : p.segments = first :: rest := hsegments
  rw [hsplit] at h
  obtain ⟨hfirst, hrest⟩ := List.forall_mem_cons.mp h
  have hcomponents : p.components = (firstComponent? p.isAbsolute first).toList := by
    unfold Path.components
    simp only [hsplit, filterMap_componentOf?_of_blank hrest, List.append_nil]
  unfold fileName?
  rw [hcomponents, firstComponent?, componentOf?, hfirst]
  cases p.isAbsolute with
  | true => rfl
  | false => by_cases hdot : first = dot <;> simp [hdot]

/-- The paths without a name. -/
theorem fileName?_eq_none_iff : p.fileName? = none ↔ p.Nameless := by
  constructor
  · intro h
    rcases exists_endsIn_or_blank p with ⟨s, hs⟩ | hblank
    · rw [fileName?_of_endsIn hs] at h
      by_cases hup : s = dotDot
      · exact .inr (hup ▸ hs)
      · rw [if_neg hup] at h
        cases h
    · exact .inl hblank
  · intro h
    rcases h with hblank | hup
    · exact fileName?_of_blank hblank
    · rw [fileName?_of_endsIn hup, if_pos rfl]

/-! ## Slashes behind a path -/

/-- What can stand behind a path without naming anything: `/` and `/.`, as often as one likes. -/
inductive Trails : Bytes → Prop
  | nothing : Trails []
  | slash {more : Bytes} (others : Trails more) : Trails (slash :: more)
  | slashDot {more : Bytes} (others : Trails more) : Trails (Path.slash :: (dot ++ more))

/-- It adds blank segments. -/
theorem Trails.segmentsOf {ends : Bytes} (h : Trails ends) :
    ∃ blanks : List Bytes, (∀ b ∈ blanks, isBlank b = true) ∧
      ∀ front, segmentsOf (front ++ ends) = Path.segmentsOf front ++ blanks := by
  induction h with
  | nothing => exact ⟨[], nofun, fun front => by simp⟩
  | @slash more others ih =>
    obtain ⟨blanks, hblanks, hsegments⟩ := ih
    refine ⟨[] :: blanks, List.forall_mem_cons.mpr ⟨rfl, hblanks⟩, fun front => ?_⟩
    have hmore : Path.segmentsOf more = [] :: blanks := hsegments []
    rw [segmentsOf_append_slash, hmore]
  | slashDot others ih =>
    obtain ⟨blanks, hblanks, hsegments⟩ := ih
    refine ⟨dot :: blanks, List.forall_mem_cons.mpr ⟨rfl, hblanks⟩, fun front => ?_⟩
    rw [segmentsOf_append_slash, hsegments]
    rfl

/-- Joining a name puts it at the end, whatever the directory. -/
theorem segments_join_of_slash_notMem (directory : Path) {n : Bytes} (hn : slash ∉ n) :
    ∃ front, segmentsOf (directory.join ⟨n⟩).bytes = front ++ [n] := by
  have relative : isAbsolute ⟨n⟩ = false := by
    cases n with
    | nil => rfl
    | cons b rest =>
      have hb : b ≠ slash := fun h => hn (h ▸ List.mem_cons_self)
      simpa [isAbsolute] using hb
  have hsegments := segmentsOf_of_slash_notMem hn
  unfold join
  rw [relative]
  by_cases hempty : directory.bytes = []
  · exact ⟨[], by simp [hempty, hsegments]⟩
  by_cases hslash : directory.bytes.getLast? = some slash
  · obtain ⟨front, hfront⟩ := List.getLast?_eq_some_iff.mp hslash
    refine ⟨Path.segmentsOf front, ?_⟩
    simp [hfront, segmentsOf_append_slash, hsegments]
  · refine ⟨Path.segmentsOf directory.bytes, ?_⟩
    simp [hempty, hslash, segmentsOf_append_slash, hsegments]

/-- **The name of an entry** is found behind every directory, and in front of slashes. -/
theorem endsIn_join (directory : Path) {n ends : Bytes} (noSlash : slash ∉ n)
    (counts : isBlank n = false) (trailing : Trails ends) :
    EndsIn ⟨(directory.join ⟨n⟩).bytes ++ ends⟩ n := by
  obtain ⟨front, hfront⟩ := segments_join_of_slash_notMem directory noSlash
  obtain ⟨blanks, hblanks, hsegments⟩ := trailing.segmentsOf
  refine ⟨front, blanks, ?_, counts, hblanks⟩
  show Path.segmentsOf _ = _
  rw [hsegments, hfront, List.append_assoc]
  rfl

end Path

/-! ## Kinds -/

/-- A kind is told from the characters of a name as it is from the bytes. -/
theorem Kind.ofText_eq_ofName (text marker : String) :
    Kind.ofText text marker = Kind.ofName (Utf8.encode text) marker := by
  have hprefix : marker.toList.isPrefixOf text.toList
      = (Utf8.encode marker).isPrefixOf (Utf8.encode text) := by
    rw [Bool.eq_iff_iff, List.isPrefixOf_iff_prefix, List.isPrefixOf_iff_prefix,
      Utf8.encode_prefix_iff]
  rw [ofText, ofName, hprefix]

/-- **The kind follows the name.** Take a directory in any spelling, a name in it of any length and
slashes behind. The fixture keeps this path, and it expects failure exactly if the bytes of the name
begin with those of the prefix; if the name is a text, this is the kind that its characters stand
for. A path without a name expects success, whatever the prefix is, and it is one in which no segment
counts or the last one that does is `..`. -/
theorem kind_follows_name (marker : String) :
    (∀ (directory : Path) (n ends : Bytes), n ≠ [] → n ≠ Path.dot → n ≠ Path.dotDot →
      Path.slash ∉ n → Path.Trails ends →
        let path : Path := ⟨(directory.join ⟨n⟩).bytes ++ ends⟩
        (Fixture.ofPath path marker).path = path ∧
        ((Fixture.ofPath path marker).kind = .expectFailure ↔ Utf8.encode marker <+: n) ∧
        ∀ text, Utf8.encode text = n →
          (Fixture.ofPath path marker).kind = Kind.ofText text marker) ∧
    ∀ p : Path, (p.fileName? = none ↔ p.Nameless) ∧
      (p.Nameless → (Fixture.ofPath p marker).kind = .expectSuccess) := by
  refine ⟨?_, ?_⟩
  · intro directory n ends nonempty notDot notUp noSlash trailing path
    have counts : Path.isBlank n = false := by simp [Path.isBlank, nonempty, notDot]
    have hname : path.fileName? = some n := by
      rw [Path.fileName?_of_endsIn (Path.endsIn_join directory noSlash counts trailing), if_neg notUp]
    have hkind : (Fixture.ofPath path marker).kind = Kind.ofName n marker := by
      unfold Fixture.ofPath
      rw [hname]
    refine ⟨rfl, ?_, ?_⟩
    · rw [hkind]
      exact Kind.ofName_eq_expectFailure_iff
    · rintro text rfl
      rw [hkind, Kind.ofText_eq_ofName]
  · intro p
    refine ⟨Path.fileName?_eq_none_iff, fun nameless => ?_⟩
    unfold Fixture.ofPath
    rw [Path.fileName?_eq_none_iff.mpr nameless]

/-- Behind a directory that begins with the prefix itself, and in front of `/.//`, the name decides,
be it text or not. Paths without a name expect success even where the prefix is empty. -/
theorem kind_follows_name_trailing :
    let directory := Path.ofString "/fail_d/"
    let broken : Bytes := Utf8.encode "fail_" ++ [0xFF]
    let ends : Bytes := Utf8.encode "/.//"
    (Fixture.ofPath ⟨(directory.join ⟨broken⟩).bytes ++ ends⟩ "fail_").kind = .expectFailure ∧
      (Fixture.ofPath ⟨(directory.join (.ofString "ok_ß")).bytes ++ ends⟩ "fail_").kind
        = Kind.ofText "ok_ß" "fail_" ∧
      ∀ text ∈ ["", "/", ".", "//./", "a/..", "../."],
        (Path.ofString text).Nameless ∧
          (Fixture.ofPath (.ofString text) "").kind = .expectSuccess := by
  intro directory broken ends
  have trailing : Path.Trails ends := .slashDot (.slash (.slash .nothing))
  obtain ⟨hnamed, -⟩ := kind_follows_name "fail_"
  obtain ⟨-, hbroken, -⟩ := hnamed directory broken ends (by decide) (by decide) (by decide)
    (by decide) trailing
  obtain ⟨-, -, htext⟩ := hnamed directory (Utf8.encode "ok_ß") ends (by decide) (by decide)
    (by decide) (by decide) trailing
  refine ⟨hbroken.mpr (List.prefix_append _ _), htext _ rfl, ?_⟩
  have hnone : ∀ text ∈ ["", "/", ".", "//./", "a/..", "../."],
      (Path.ofString text).fileName? = none := by decide
  intro text htext
  obtain ⟨hiff, hkind⟩ := (kind_follows_name "").2 (.ofString text)
  have nameless := hiff.mp (hnone text htext)
  exact ⟨nameless, hkind nameless⟩

end FixtureSuite
