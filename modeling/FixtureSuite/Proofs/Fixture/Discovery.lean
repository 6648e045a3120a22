import Mathlib.Data.List.Nodup
import FixtureSuite.Fixture.Discovery
import FixtureSuite.Proofs.Files.Lookup

/-!
# What is found in a directory

Discovery goes from a listing, in whatever order, over paths to fixtures. `discover_listed` says
what comes out by names alone: the regular files that the directory holds and that are in reach by
their path, each once, in the order of their names.
-/

namespace FixtureSuite

namespace FileTree

variable {t : FileTree} {directory : Path} {names : List Name} {n : Name} {spot : Spot}

/-! ## Listings -/

theorem mem_namesBelow : n ∈ t.namesBelow spot ↔ n :: spot ∈ t.entries.map Prod.fst := by
  simp only [namesBelow, List.mem_filterMap, List.mem_map]
  refine exists_congr fun e => and_congr_right fun _ => ?_
  cases e.1 with
  | nil => simp
  | cons m above => by_cases h : above = spot <;> simp [h]

/-- A directory lists no name twice, as no two entries share a spot. -/
theorem nodup_namesBelow (t : FileTree) (spot : Spot) : (t.namesBelow spot).Nodup := by
  refine List.Pairwise.filterMap _ ?_ (List.pairwise_map.mp t.distinct)
  rintro ⟨_ | ⟨m, above⟩, e⟩ ⟨_ | ⟨m', above'⟩, e'⟩ hspots b hb b' hb' <;> simp_all

theorem list_eq_ok_iff : t.list directory = .ok names ↔
    ∃ spot, t.locate directory = .ok spot ∧ t.isDirectory spot = true ∧
      names = t.namesBelow spot := by
  simp only [list, bind_eq_ok_iff]
  refine exists_congr fun spot => and_congr_right fun _ => ?_
  cases h : t.isDirectory spot with
  | false => simp
  | true => simp [@eq_comm _ _ names]

theorem nodup_of_list (h : t.list directory = .ok names) : names.Nodup := by
  obtain ⟨spot, -, -, rfl⟩ := list_eq_ok_iff.mp h
  exact nodup_namesBelow t spot

theorem isName_of_list (h : t.list directory = .ok names) (hn : n ∈ names) : isName n = true := by
  obtain ⟨spot, -, -, rfl⟩ := list_eq_ok_iff.mp h
  obtain ⟨e, he, hspot⟩ := List.mem_map.mp (mem_namesBelow.mp hn)
  have hnamed := t.named e he
  rwa [hspot] at hnamed

/-- A directory lists the names under which something stands right below it. -/
theorem mem_names_iff (h : t.list directory = .ok names) (hspot : t.locate directory = .ok spot) :
    n ∈ names ↔ t.entryAt (n :: spot) ≠ none := by
  obtain ⟨spot', hspot', -, rfl⟩ := list_eq_ok_iff.mp h
  obtain rfl : spot = spot' := by simpa [hspot] using hspot'
  rw [mem_namesBelow, Option.ne_none_iff_exists']
  simp only [entryAt_eq_some_iff, List.mem_map, Prod.exists, exists_and_right, exists_eq_right]

/-- Whatever a directory holds, it lists. -/
theorem mem_of_holds {content : Bytes} (h : t.list directory = .ok names)
    (hn : t.Holds directory n content) : n ∈ names := by
  obtain ⟨spot, links, file, hspot, hname, hfile, -⟩ := hn
  rw [mem_names_iff h hspot]
  intro hnone
  rw [walk] at hfile
  cases hdirectory : t.isDirectory spot <;>
    simp [hdirectory, not_isBlank_of_isName hname, ne_dotDot_of_isName hname, hnone,
      Nat.not_lt.mpr (length_le_of_isName hname)] at hfile

/-! ## Sorting -/

/-- A list without duplicates, sorted, is strictly increasing. -/
theorem pairwise_lt_mergeSort {names : List Name} (h : names.Nodup) :
    (names.mergeSort fun a b => decide (a ≤ b)).Pairwise (· < ·) := by
  have hsorted : (names.mergeSort fun a b => decide (a ≤ b)).Pairwise fun a b => decide (a ≤ b) :=
    List.pairwise_mergeSort (fun a b c => by simpa using List.le_trans)
      (fun a b => by simpa using List.le_total a b) names
  have hnodup : (names.mergeSort fun a b => decide (a ≤ b)).Nodup :=
    (List.mergeSort_perm names _).nodup_iff.mpr h
  refine (hsorted.and hnodup).imp fun {a b} hab => ?_
  exact (List.le_iff_lt_or_eq.mp (of_decide_eq_true hab.1)).resolve_right hab.2

end FileTree

open FileTree

/-- **What is found.** The fixtures of a directory that can be listed are the regular files that it
holds and that are in reach, in the order of their names. -/
theorem discover_listed {t : FileTree} {directory : Path} {names : List Name} (marker : String)
    (listed : t.list directory = .ok names) :
    ∃ found : List Name, found.Pairwise (· < ·) ∧
      (∀ n, n ∈ found ↔
        ∃ content, t.Holds directory n content ∧ ¬ t.OutOfReach (directory.join ⟨n⟩)) ∧
      discover t marker directory =
        .ok (found.map fun n => ⟨directory.join ⟨n⟩, .ofName n marker⟩) := by
  obtain ⟨place, hplace, -, -⟩ := list_eq_ok_iff.mp listed
  have hne := (lookUp_eq_ok_iff.mp (locate_eq_ok_iff.mp hplace).2).1
  have hnames : ∀ n ∈ names, isName n = true := fun n => isName_of_list listed
  let files := names.filter fun n => t.isFile (directory.join ⟨n⟩)
  have hfiles : ∀ n ∈ files, isName n = true := fun n hn => hnames n (List.mem_of_mem_filter hn)
  have hmem : ∀ n, n ∈ files.mergeSort (fun a b => decide (a ≤ b)) ↔ n ∈ files := fun n =>
    (List.mergeSort_perm files _).mem_iff
  refine ⟨files.mergeSort fun a b => decide (a ≤ b),
    pairwise_lt_mergeSort ((nodup_of_list listed).filter _), fun n => ?_, ?_⟩
  · rw [hmem, List.mem_filter, isFile_iff]
    constructor
    · rintro ⟨hn, content, hread⟩
      exact ⟨content, (read_join hplace (hnames n hn)).mp hread⟩
    · rintro ⟨content, hholds, hreach⟩
      have hn := mem_of_holds listed hholds
      exact ⟨hn, content, (read_join hplace (hnames n hn)).mpr ⟨hholds, hreach⟩⟩
  · -- Filtering and sorting commute with going from names to paths.
    have hsort : ((names.map fun n => directory.join ⟨n⟩).filter t.isFile).mergeSort Path.le
        = (files.mergeSort fun a b => decide (a ≤ b)).map fun n => directory.join ⟨n⟩ := by
      rw [List.filter_map]
      exact (List.map_mergeSort fun a ha b hb =>
        (Path.le_join hne (hfiles a ha) (hfiles b hb)).symm).symm
    have hfixture : ∀ n ∈ files, Fixture.ofPath (directory.join ⟨n⟩) marker
        = ⟨directory.join ⟨n⟩, .ofName n marker⟩ := fun n hn => by
      simp [Fixture.ofPath, Path.fileName?_join hne (hfiles n hn)]
    have hin : t.filesIn directory
        = .ok ((files.mergeSort fun a b => decide (a ≤ b)).map fun n => directory.join ⟨n⟩) := by
      rw [← hsort]
      simp [filesIn, listed]
    simp only [discover, hin, mapError_ok, ok_bind, pure_eq_ok, List.map_map]
    rw [Except.ok.injEq]
    exact List.map_congr_left fun n hn => hfixture n ((hmem n).mp hn)

/-- The same with what the files hold. -/
theorem discover_files {t : FileTree} {directory : Path} {names : List Name} (marker : String)
    (listed : t.list directory = .ok names) :
    ∃ files : List (Name × Bytes), (files.map Prod.fst).Pairwise (· < ·) ∧
      (∀ n content, (n, content) ∈ files ↔
        t.Holds directory n content ∧ ¬ t.OutOfReach (directory.join ⟨n⟩)) ∧
      discover t marker directory =
        .ok (files.map fun f => ⟨directory.join ⟨f.1⟩, .ofName f.1 marker⟩) := by
  obtain ⟨found, hsorted, hfound, hdiscover⟩ := discover_listed marker listed
  obtain ⟨place, hplace, -, -⟩ := list_eq_ok_iff.mp listed
  let contentOf (n : Name) : Bytes := (t.read (directory.join ⟨n⟩)).toOption.getD []
  refine ⟨found.map fun n => (n, contentOf n), ?_, fun n content => ?_, ?_⟩
  · simpa [List.map_map, Function.comp_def] using hsorted
  · have hmem : (n, content) ∈ found.map (fun n => (n, contentOf n)) ↔
        n ∈ found ∧ contentOf n = content := by
      simp
    rw [hmem, hfound]
    constructor
    · rintro ⟨⟨content', hholds, hreach⟩, rfl⟩
      have hread := (read_join hplace hholds.isName).mpr ⟨hholds, hreach⟩
      have hcontent : contentOf n = content' := by simp [contentOf, hread, Except.toOption]
      exact ⟨hcontent ▸ hholds, hreach⟩
    · rintro ⟨hholds, hreach⟩
      have hread := (read_join hplace hholds.isName).mpr ⟨hholds, hreach⟩
      exact ⟨⟨content, hholds, hreach⟩, by simp [contentOf, hread, Except.toOption]⟩
  · rw [hdiscover, List.map_map]
    rfl

end FixtureSuite
