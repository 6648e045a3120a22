import FixtureSuite.Proofs.Chain
import FixtureSuite.Proofs.Files.Join

/-!
# Looking up what a directory holds

A directory and the path of an entry in it are looked up separately, each from the beginning. The
two look-ups agree except for what both count: the path of the entry is longer than the directory's,
and it has to follow the directory's links before its own. `lookUp_join` says so.

Two facts about `walk` carry this. A walk over segments put together is one walk and then the other,
with the links that the first has left (`walk_append`). And the number of links that may be followed
only matters to a walk that runs out of them (`walk_add`). Both are inductions over hops: `hop` is
what a walk does at one segment, and `walk_induction` is the recursion of `walk` in terms of it.
-/

namespace FixtureSuite

namespace FileTree

variable {t : FileTree} {place : Spot} {links : Nat} {segment : Bytes}

/-! ## One hop -/

/-- What a walk does at a segment: the links that it has left, where it stands, and the segments
that it has to walk over before it goes on. -/
def hop (t : FileTree) (links : Nat) (place : Spot) (segment : Bytes) :
    Except Errno (Nat × Spot × List Bytes) :=
  if !t.isDirectory place then .error .notDirectory
  else if Path.isBlank segment then .ok (links, place, [])
  else if segment = Path.dotDot then .ok (links, place.tail, [])
  else if segment.length > maxName then .error .nameTooLong
  else
    match t.entryAt (segment :: place) with
    | none => .error .notFound
    | some (.link target) =>
      match links with
      | 0 => .error .tooManyLinks
      | links + 1 => .ok (links, origin place target, target.segments)
    | some _ => .ok (links, segment :: place, [])

theorem walk_nil (t : FileTree) (links : Nat) (place : Spot) :
    t.walk links place [] = .ok place := by
  rw [walk]

/-- A walk hops, and goes on from there. -/
theorem walk_cons (t : FileTree) (links : Nat) (place : Spot) (segment : Bytes)
    (rest : List Bytes) :
    t.walk links place (segment :: rest) =
      match t.hop links place segment with
      | .error e => .error e
      | .ok (left, next, more) => t.walk left next (more ++ rest) := by
  rw [walk]
  unfold hop
  by_cases hdirectory : t.isDirectory place = true
  · by_cases hblank : Path.isBlank segment = true
    · simp [hdirectory, hblank]
    by_cases hup : segment = Path.dotDot
    · simp [hdirectory, hup, show Path.isBlank Path.dotDot = false from rfl]
    by_cases hlong : segment.length > maxName
    · simp [hdirectory, hblank, hup, hlong]
    · rcases t.entryAt (segment :: place) with _ | ⟨_ | _ | _ | target⟩
      case some.link => cases links <;> simp [hdirectory, hblank, hup, hlong]
      all_goals simp [hdirectory, hblank, hup, hlong]
  · simp [hdirectory]

theorem walk_of_hop_error {e : Errno} (h : t.hop links place segment = .error e)
    (rest : List Bytes) : t.walk links place (segment :: rest) = .error e := by
  rw [walk_cons, h]

theorem walk_of_hop_ok {left : Nat} {next : Spot} {more : List Bytes}
    (h : t.hop links place segment = .ok (left, next, more)) (rest : List Bytes) :
    t.walk links place (segment :: rest) = t.walk left next (more ++ rest) := by
  rw [walk_cons, h]

/-- Blank segments lead nowhere else. -/
theorem walk_of_isBlank (hdirectory : t.isDirectory place = true)
    (hblank : Path.isBlank segment = true) (rest : List Bytes) :
    t.walk links place (segment :: rest) = t.walk links place rest := by
  have hhop : t.hop links place segment = .ok (links, place, []) := by
    simp [hop, hdirectory, hblank]
  rw [walk_of_hop_ok hhop, List.nil_append]

theorem walk_blanks (links : Nat) (hdirectory : t.isDirectory place = true) {blanks : List Bytes}
    (hblanks : ∀ s ∈ blanks, Path.isBlank s = true) : t.walk links place blanks = .ok place := by
  induction blanks with
  | nil => exact walk_nil t links place
  | cons s rest ih =>
    rw [walk_of_isBlank hdirectory (hblanks s List.mem_cons_self)]
    exact ih fun s hs => hblanks s (List.mem_cons_of_mem _ hs)

/-- A walk goes on below what has the name, unless that is a link. -/
theorem walk_of_plain {n : Name} {entry : Entry} (hdirectory : t.isDirectory place = true)
    (hn : isName n = true) (hentry : t.entryAt (n :: place) = some entry)
    (plain : ∀ target, entry ≠ .link target) (rest : List Bytes) :
    t.walk links place (n :: rest) = t.walk links (n :: place) rest := by
  have hhop : t.hop links place n = .ok (links, n :: place, []) := by
    unfold hop
    rcases entry with _ | _ | _ | target
    case link => exact absurd rfl (plain target)
    all_goals simp [hdirectory, not_isBlank_of_isName hn, ne_dotDot_of_isName hn,
      Nat.not_lt.mpr (length_le_of_isName hn), hentry]
  rw [walk_of_hop_ok hhop, List.nil_append]

/-- **Three hops.** At a segment a walk is stuck, or goes on, or follows a link; and which of these
it is does not depend on how many links it may follow. -/
theorem hop_cases (t : FileTree) (place : Spot) (segment : Bytes) :
    (∃ e, e ≠ .tooManyLinks ∧ ∀ links, t.hop links place segment = .error e) ∨
    (∃ next, ∀ links, t.hop links place segment = .ok (links, next, [])) ∨
    (∃ next more, t.hop 0 place segment = .error .tooManyLinks ∧
      ∀ links, t.hop (links + 1) place segment = .ok (links, next, more)) := by
  unfold hop
  by_cases hdirectory : t.isDirectory place = true
  · by_cases hblank : Path.isBlank segment = true
    · exact .inr (.inl ⟨place, by simp [hdirectory, hblank]⟩)
    by_cases hup : segment = Path.dotDot
    · subst hup
      exact .inr (.inl ⟨place.tail, by simp [hdirectory, hblank]⟩)
    by_cases hlong : segment.length > maxName
    · exact .inl ⟨.nameTooLong, by decide, by simp [hdirectory, hblank, hup, hlong]⟩
    · rcases t.entryAt (segment :: place) with _ | ⟨_ | _ | _ | target⟩
      case none => exact .inl ⟨.notFound, by decide, by simp [hdirectory, hblank, hup, hlong]⟩
      case some.link =>
        exact .inr (.inr ⟨origin place target, target.segments,
          by simp [hdirectory, hblank, hup, hlong]⟩)
      all_goals exact .inr (.inl ⟨segment :: place, by simp [hdirectory, hblank, hup, hlong]⟩)
  · exact .inl ⟨.notDirectory, by decide, by simp [hdirectory]⟩

/-- A hop uses up a link, or it uses up the segment. -/
theorem hop_ok {left : Nat} {next : Spot} {more : List Bytes}
    (h : t.hop links place segment = .ok (left, next, more)) :
    left < links ∨ left = links ∧ more = [] := by
  rcases hop_cases t place segment with ⟨e, -, hstuck⟩ | ⟨next', hon⟩ | ⟨next', more', hnone, hlink⟩
  · simp [hstuck] at h
  · obtain ⟨rfl, rfl, rfl⟩ : links = left ∧ next' = next ∧ [] = more := by simpa [hon] using h
    exact .inr ⟨rfl, rfl⟩
  · cases links with
    | zero => simp [hnone] at h
    | succ links =>
      obtain ⟨rfl, rfl, rfl⟩ : links = left ∧ next' = next ∧ more' = more := by
        simpa [hlink] using h
      exact .inl (Nat.lt_succ_self links)

/-- With more links to follow, a hop is stuck as before, unless it lacked one. -/
theorem hop_error_add (extra : Nat) {e : Errno} (h : t.hop links place segment = .error e)
    (hlack : e ≠ .tooManyLinks) : t.hop (links + extra) place segment = .error e := by
  rcases hop_cases t place segment with ⟨e', -, hstuck⟩ | ⟨next, hon⟩ | ⟨next, more, hnone, hlink⟩
  · rwa [hstuck] at h ⊢
  · simp [hon] at h
  · cases links with
    | zero => exact absurd (by simpa [hnone] using h.symm) hlack
    | succ links => simp [hlink] at h

/-- With more links to follow, a hop leaves more of them. -/
theorem hop_ok_add (extra : Nat) {left : Nat} {next : Spot} {more : List Bytes}
    (h : t.hop links place segment = .ok (left, next, more)) :
    t.hop (links + extra) place segment = .ok (left + extra, next, more) := by
  rcases hop_cases t place segment with ⟨e, -, hstuck⟩ | ⟨next', hon⟩ | ⟨next', more', hnone, hlink⟩
  · simp [hstuck] at h
  · obtain ⟨rfl, rfl, rfl⟩ : links = left ∧ next' = next ∧ [] = more := by simpa [hon] using h
    exact hon _
  · cases links with
    | zero => simp [hnone] at h
    | succ links =>
      obtain ⟨rfl, rfl, rfl⟩ : links = left ∧ next' = next ∧ more' = more := by
        simpa [hlink] using h
      rw [Nat.add_right_comm]
      exact hlink _

/-- Induction along a walk: at each segment the walk ends or hops on. -/
theorem walk_induction (t : FileTree) {motive : Nat → Spot → List Bytes → Prop}
    (nil : ∀ links place, motive links place [])
    (stuck : ∀ links place segment rest e, t.hop links place segment = .error e →
      motive links place (segment :: rest))
    (hop : ∀ links place segment rest left next more,
      t.hop links place segment = .ok (left, next, more) → left ≤ links →
      motive left next (more ++ rest) → motive links place (segment :: rest))
    (links : Nat) (place : Spot) (segments : List Bytes) : motive links place segments := by
  induction links using Nat.strongRecOn generalizing place segments with
  | _ links ihLinks =>
    induction segments generalizing place with
    | nil => exact nil links place
    | cons segment rest ihRest =>
      cases h : t.hop links place segment with
      | error e => exact stuck _ _ _ _ _ h
      | ok result =>
        obtain ⟨left, next, more⟩ := result
        -- A hop that uses up a link is left to the outer induction, one that uses up the segment to
        -- the inner one.
        rcases hop_ok h with hless | ⟨rfl, rfl⟩
        · exact hop _ _ _ _ _ _ _ h (Nat.le_of_lt hless) (ihLinks left hless _ _)
        · exact hop _ _ _ _ _ _ _ h (Nat.le_refl _) (ihRest next)

/-! ## Whole walks -/

/-- **Two walks in one.** A walk over segments put together fails with the first part, or goes on
from where the first part ends, with the links that are left. More links to begin with are as many
more that are left. -/
theorem walk_append (t : FileTree) (links : Nat) (place : Spot) (front : List Bytes) :
    (∃ e, ∀ back, t.walk links place (front ++ back) = .error e) ∨
    ∃ mid left, t.walk links place front = .ok mid ∧
      ∀ extra back, t.walk (links + extra) place (front ++ back) = t.walk (left + extra) mid back := by
  induction links, place, front using walk_induction t with
  | nil links place => exact .inr ⟨place, links, walk_nil _ _ _, fun extra back => rfl⟩
  | stuck links place segment rest e h => exact .inl ⟨e, fun back => walk_of_hop_error h _⟩
  | hop links place segment rest left next more h hless ih =>
    have hnext : ∀ extra back, t.walk (links + extra) place (segment :: rest ++ back)
        = t.walk (left + extra) next (more ++ rest ++ back) := fun extra back => by
      rw [List.cons_append, walk_of_hop_ok (hop_ok_add extra h), List.append_assoc]
    rcases ih with ⟨e, herror⟩ | ⟨mid, least, hmid, hback⟩
    · exact .inl ⟨e, fun back => (hnext 0 back).trans (herror back)⟩
    · refine .inr ⟨mid, least, ?_, fun extra back =>
        (hnext extra back).trans (hback extra back)⟩
      rw [walk_of_hop_ok h, hmid]

/-- A walk that comes to an end is gone on with from there. -/
theorem walk_append_of_ok {mid : Spot} {front : List Bytes}
    (h : t.walk links place front = .ok mid) :
    ∃ left, ∀ extra back,
      t.walk (links + extra) place (front ++ back) = t.walk (left + extra) mid back := by
  rcases walk_append t links place front with ⟨e, herror⟩ | ⟨mid', left, hmid, hback⟩
  · have herror := herror []
    rw [List.append_nil, h] at herror
    cases herror
  · rw [h, Except.ok.injEq] at hmid
    exact ⟨left, hmid ▸ hback⟩

/-- If a walk comes to an end, so does each part of it. -/
theorem walk_ok_of_append {last : Spot} {front back : List Bytes}
    (h : t.walk links place (front ++ back) = .ok last) :
    ∃ mid left, t.walk links place front = .ok mid ∧ t.walk left mid back = .ok last := by
  rcases walk_append t links place front with ⟨e, herror⟩ | ⟨mid, left, hmid, hback⟩
  · rw [herror] at h
    cases h
  · exact ⟨mid, left, hmid, (hback 0 back).symm.trans h⟩

/-- **More links.** A walk that does not run out of links goes the same way with more of them. -/
theorem walk_add (t : FileTree) (extra links : Nat) (place : Spot) (segments : List Bytes)
    (h : t.walk links place segments ≠ .error .tooManyLinks) :
    t.walk (links + extra) place segments = t.walk links place segments := by
  induction links, place, segments using walk_induction t with
  | nil links place => rw [walk_nil, walk_nil]
  | stuck links place segment rest e hhop =>
    have hlack : e ≠ .tooManyLinks := by
      rintro rfl
      exact h (walk_of_hop_error hhop rest)
    rw [walk_of_hop_error hhop, walk_of_hop_error (hop_error_add extra hhop hlack)]
  | hop links place segment rest left next more hhop hless ih =>
    rw [walk_of_hop_ok hhop] at h ⊢
    rw [walk_of_hop_ok (hop_ok_add extra hhop), ih h]

/-- However many links it may follow, a walk that comes to an end comes to the same. -/
theorem walk_unique {links' : Nat} {segments : List Bytes} {last last' : Spot}
    (h : t.walk links place segments = .ok last) (h' : t.walk links' place segments = .ok last') :
    last = last' := by
  have hmore : t.walk (links + links') place segments = .ok last := by
    rw [walk_add t links' links place segments (by simp [h]), h]
  have hmore' : t.walk (links' + links) place segments = .ok last' := by
    rw [walk_add t links links' place segments (by simp [h']), h']
  rw [Nat.add_comm, hmore, Except.ok.injEq] at hmore'
  exact hmore'

/-- A blank end keeps a walk where it is. -/
theorem walk_blank_end {next : Spot} (h : t.walk links place [[]] = .ok next) : place = next := by
  rw [walk] at h
  by_cases hdirectory : t.isDirectory place = true
  · simpa [hdirectory, Path.isBlank, walk_nil] using h
  · simp [hdirectory] at h

/-! ## Files at the end of a walk -/

/-- What a regular file holds. -/
def contentAt (t : FileTree) (place : Spot) : Option Bytes :=
  match t.entryAt place with
  | some (.file content) => some content
  | some (.program content _) => some content
  | _ => none

/-- A directory holds a regular file under a name, as far as links may lead. -/
def Holds (t : FileTree) (directory : Path) (n : Name) (content : Bytes) : Prop :=
  ∃ place links file, t.locate directory = .ok place ∧ isName n = true ∧
    t.walk links place [n] = .ok file ∧ t.contentAt file = some content

theorem Holds.isName {directory : Path} {n : Name} {content : Bytes}
    (h : t.Holds directory n content) : isName n = true := by
  obtain ⟨_, _, _, _, hname, -⟩ := h
  exact hname

/-- A path that the system refuses to follow: it is too long, or it leads over too many links. -/
def OutOfReach (t : FileTree) (p : Path) : Prop :=
  t.lookUp p = .error .nameTooLong ∨ t.lookUp p = .error .tooManyLinks

section

variable {p directory : Path} {n : Name} {content : Bytes}

theorem locate_eq_ok_iff :
    t.locate p = .ok place ↔ (0 : UInt8) ∉ p.bytes ∧ t.lookUp p = .ok place := by
  unfold locate
  by_cases h : (0 : UInt8) ∈ p.bytes
  · simp [h]
  · simp [h, mapError_eq_ok_iff]

theorem lookUp_eq_ok_iff : t.lookUp p = .ok place ↔ p.bytes ≠ [] ∧ p.bytes.length < maxPath ∧
    t.walk maxLinks (origin t.here p) p.segments = .ok place := by
  unfold lookUp
  by_cases hempty : p.bytes = []
  · simp [hempty]
  by_cases hlong : p.bytes.length ≥ maxPath
  · simp [hempty, hlong, Nat.not_lt.mpr hlong]
  · simp [hempty, hlong, Nat.not_le.mp hlong]

theorem read_eq_ok_iff :
    t.read p = .ok content ↔
      ∃ place, t.locate p = .ok place ∧ t.contentAt place = some content := by
  simp only [read, bind_eq_ok_iff]
  refine exists_congr fun place => and_congr_right fun _ => ?_
  unfold contentAt
  rcases t.entryAt place with _ | ⟨_ | _ | _ | _⟩ <;> simp

theorem isFile_iff : t.isFile p = true ↔ ∃ content, t.read p = .ok content := by
  simp only [read_eq_ok_iff]
  unfold isFile contentAt
  cases t.locate p with
  | error e => simp
  | ok place => rcases h : t.entryAt place with _ | ⟨_ | _ | _ | _⟩ <;> simp [h]

/-- The look-up of an entry begins with the walk to its directory. -/
theorem segments_join_walk (hdirectory : t.lookUp directory = .ok place) (hn : isName n = true) :
    ∃ front, (directory.join ⟨n⟩).segments = front ++ [n] ∧
      t.walk maxLinks (origin t.here directory) front = .ok place := by
  obtain ⟨hne, -, hwalk⟩ := lookUp_eq_ok_iff.mp hdirectory
  obtain ⟨front, -, hsegments, hfront⟩ := Path.segments_join hne hn
  refine ⟨front, hsegments, ?_⟩
  rcases hfront with h | h
  · rwa [h] at hwalk
  · rw [h] at hwalk
    obtain ⟨mid, left, hmid, hblank⟩ := walk_ok_of_append hwalk
    rw [hmid, walk_blank_end hblank]

/-- **An entry's look-up.** It is a walk from the directory over the name, if the path is not too
long, with the links that the way to the directory has left. -/
theorem lookUp_join (hdirectory : t.lookUp directory = .ok place) (hn : isName n = true) :
    ∃ links, t.lookUp (directory.join ⟨n⟩) =
      if (directory.join ⟨n⟩).bytes.length ≥ maxPath then .error .nameTooLong
      else t.walk links place [n] := by
  have hne := (lookUp_eq_ok_iff.mp hdirectory).1
  have hjoined : (directory.join ⟨n⟩).bytes ≠ [] := by
    obtain ⟨front, hbytes, -⟩ := Path.bytes_join hne hn
    simp [hbytes]
  have horigin : origin t.here (directory.join ⟨n⟩) = origin t.here directory := by
    simp only [origin, Path.isAbsolute_join hne hn]
  obtain ⟨front, hsegments, hfront⟩ := segments_join_walk hdirectory hn
  obtain ⟨left, hback⟩ := walk_append_of_ok hfront
  have hentry : t.walk maxLinks (origin t.here directory) (front ++ [n])
      = t.walk left place [n] := hback 0 [n]
  exact ⟨left, by rw [lookUp, if_neg hjoined, horigin, hsegments, hentry]⟩

/-- **Reading an entry.** What is read is what the directory holds, unless the entry's path is out
of reach. -/
theorem read_join (hdirectory : t.locate directory = .ok place) (hn : isName n = true) :
    t.read (directory.join ⟨n⟩) = .ok content ↔
      t.Holds directory n content ∧ ¬ t.OutOfReach (directory.join ⟨n⟩) := by
  obtain ⟨hzero, hlook⟩ := locate_eq_ok_iff.mp hdirectory
  have hne := (lookUp_eq_ok_iff.mp hlook).1
  obtain ⟨links, hjoin⟩ := lookUp_join hlook hn
  rw [read_eq_ok_iff]
  constructor
  · rintro ⟨file, hfile, hcontent⟩
    obtain ⟨-, hfile⟩ := locate_eq_ok_iff.mp hfile
    refine ⟨⟨place, links, file, hdirectory, hn, ?_, hcontent⟩, ?_⟩
    · rw [hjoin] at hfile
      split at hfile
      · cases hfile
      · exact hfile
    · rintro (h | h) <;> simp [hfile] at h
  · rintro ⟨⟨place', links', file, hplace, -, hfile, hcontent⟩, hreach⟩
    obtain rfl : place' = place := by simpa [hdirectory] using hplace.symm
    refine ⟨file, locate_eq_ok_iff.mpr ⟨?_, ?_⟩, hcontent⟩
    · rwa [Path.zero_mem_join hne hn]
    · simp only [OutOfReach, not_or, hjoin] at hreach ⊢
      split
      · next h => simp [h] at hreach
      · next h =>
        simp only [h, if_false] at hreach
        -- With the links of both walks taken together, both go the same way.
        have hfound : t.walk links' place' [n] ≠ .error .tooManyLinks := by simp [hfile]
        rw [← walk_add t links' links _ _ hreach.2, Nat.add_comm,
          walk_add t links links' _ _ hfound, hfile]

end

end FileTree

end FixtureSuite
