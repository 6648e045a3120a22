import FixtureSuite.Proofs.Toml.Data
import FixtureSuite.Toml.Syntax

/-!
# No name is given twice

Every table of a document that can be read is sound. Keys and headers add to tables in one way
only, through `descend`, so the property is carried by a single step lemma, `descend_keeps`: what is
done at the end of a walk decides what the whole walk does. Statements and then documents follow
from it, and values follow because tables between braces are put together in the same way.
-/

namespace FixtureSuite

namespace Toml

/-! ## Walks -/

/-- Something that is done to a table, and that leaves it sound. What comes of it besides satisfies
`P`. -/
def Keeps {α : Type} (P : α → Prop) (f : Form → Entries → Option (α × Entries)) : Prop :=
  ∀ form es a es', es.Sound → f form es = some (a, es') → P a ∧ es'.Sound

theorem bind_pure_eq_some_iff {α β : Type} {x : Option α} {g : α → β} {b : β} :
    (x >>= fun a => pure (g a)) = some b ↔ ∃ a, x = some a ∧ g a = b := by
  simp [Option.bind_eq_some_iff]

/-- What every step keeps, all steps keep. -/
theorem foldlM_invariant {α β : Type} {P : β → Prop} {step : β → α → Option β} {xs : List α}
    (hstep : ∀ x ∈ xs, ∀ b b', P b → step b x = some b' → P b') {b b' : β} (hb : P b)
    (h : xs.foldlM step b = some b') : P b' := by
  induction xs generalizing b with
  | nil =>
    cases h
    exact hb
  | cons x rest ih =>
    rw [List.foldlM_cons] at h
    obtain ⟨b₁, first, others⟩ := Option.bind_eq_some_iff.1 h
    have hfirst := hstep x List.mem_cons_self b b₁ hb first
    exact ih (fun y hy => hstep y (List.mem_cons_of_mem x hy)) hfirst others

/-- **The walk.** It leaves every table on its way sound if it leaves the last one so. -/
theorem descend_keeps {α : Type} {P : α → Prop} {dotted : Bool}
    {f : Form → Entries → Option (α × Entries)} (hf : Keeps P f) (above : List Key) :
    Keeps P (descend dotted f above) := by
  induction above with
  | nil => exact hf
  | cons key above ih =>
    intro form es a es' hes h
    unfold descend at h
    cases found : es.find? key.name with
    | none =>
      simp only [found] at h
      obtain ⟨⟨a, sub⟩, walk, ⟨⟩⟩ := bind_pure_eq_some_iff.1 h
      obtain ⟨ha, hsub⟩ := ih _ _ _ _ .nil walk
      exact ⟨ha, hes.append found (sound_table_iff.2 hsub)⟩
    | some v =>
      have hv := hes.of_find? found
      obtain ⟨span, _ | _ | _ | _ | _ | ⟨_ | _, items⟩ | ⟨form, sub⟩⟩ := v
      -- A walk enters tables and arrays of tables only.
      all_goals simp only [found, reduceCtorEq] at h
      · cases last : items.getLast? with
        | none => simp [last] at h
        | some item =>
          have hitem := sound_array_iff.1 hv item (List.mem_of_getLast? last)
          obtain ⟨itemSpan, _ | _ | _ | _ | _ | _ | ⟨form, sub⟩⟩ := item
          all_goals simp only [last, reduceCtorEq] at h
          obtain ⟨⟨a, sub'⟩, walk, ⟨⟩⟩ := bind_pure_eq_some_iff.1 h
          obtain ⟨ha, hsub⟩ := ih _ _ _ _ (sound_table_iff.1 hitem) walk
          refine ⟨ha, hes.replace (sound_array_iff.2 fun item hmem => ?_)⟩
          rcases List.mem_append.1 hmem with hmem | hmem
          · exact sound_array_iff.1 hv item (List.dropLast_subset _ hmem)
          · obtain rfl := List.mem_singleton.1 hmem
            exact sound_table_iff.2 hsub
      · split at h
        · cases h
        · obtain ⟨⟨a, sub'⟩, walk, ⟨⟩⟩ := bind_pure_eq_some_iff.1 h
          obtain ⟨ha, hsub⟩ := ih _ _ _ _ (sound_table_iff.1 hv) walk
          exact ⟨ha, hes.replace (sound_table_iff.2 hsub)⟩

/-! ## Pairs -/

theorem addPair?_sound {pair : Pair} {es es' : Entries} (hes : es.Sound)
    (hpair : pair.value.2.Sound) (h : addPair? pair es = some es') : es'.Sound := by
  unfold addPair? at h
  obtain ⟨⟨_, root⟩, walk, rfl⟩ := bind_pure_eq_some_iff.1 h
  refine (descend_keeps (P := fun _ => True) ?_ _ _ _ _ _ hes walk).2
  intro form es a es' hes h
  beta_reduce at h
  split at h
  · cases h
  · obtain ⟨es'', hadd, ⟨⟩⟩ := bind_pure_eq_some_iff.1 h
    exact ⟨trivial, hes.add hpair hadd⟩

theorem inlineTable?_sound {pairs : List Pair} (hpairs : ∀ pair ∈ pairs, pair.value.2.Sound)
    {v : Value} (h : inlineTable? pairs = some v) : v.Sound := by
  unfold inlineTable? at h
  obtain ⟨es, hadd, rfl⟩ := bind_pure_eq_some_iff.1 h
  refine sound_table_iff.2 (foldlM_invariant ?_ .nil hadd)
  intro pair hpair es es' hes h
  exact addPair?_sound hes (hpairs pair hpair) h

/-! ## Documents in the making -/

structure Draft.Sound (d : Draft) : Prop where
  root : d.root.Sound
  current : d.current.Sound

theorem pushTable?_sound {key : Key} {span : Span} {entries es es' : Entries}
    (hentries : entries.Sound) (hes : es.Sound)
    (h : pushTable? key span entries es = some es') : es'.Sound := by
  unfold pushTable? at h
  have htable : (Value.table .header entries).Sound := sound_table_iff.2 hentries
  cases found : es.find? key.name with
  | none =>
    simp only [found, Option.some.injEq] at h
    subst h
    refine hes.append found (sound_array_iff.2 fun item hitem => ?_)
    obtain rfl := List.mem_singleton.1 hitem
    exact htable
  | some v =>
    have hv := hes.of_find? found
    obtain ⟨span', _ | _ | _ | _ | _ | ⟨_ | _, items⟩ | _⟩ := v
    all_goals simp only [found, reduceCtorEq, Option.some.injEq] at h
    subst h
    refine hes.replace (sound_array_iff.2 fun item hitem => ?_)
    rcases List.mem_append.1 hitem with hitem | hitem
    · exact sound_array_iff.1 hv item hitem
    · obtain rfl := List.mem_singleton.1 hitem
      exact htable

theorem close?_sound {d : Draft} (hd : d.Sound) {es : Entries} (h : d.close? = some es) :
    es.Sound := by
  unfold Draft.close? at h
  cases htarget : d.target with
  | root =>
    simp only [htarget, Option.some.injEq] at h
    subst h
    exact hd.current
  | table key span =>
    simp only [htarget] at h
    obtain ⟨⟨_, root⟩, walk, rfl⟩ := bind_pure_eq_some_iff.1 h
    refine (descend_keeps (P := fun _ => True) ?_ _ _ _ _ _ hd.root walk).2
    intro form es a es' hes h
    obtain ⟨es'', hadd, ⟨⟩⟩ := bind_pure_eq_some_iff.1 h
    exact ⟨trivial, hes.add (sound_table_iff.2 hd.current) hadd⟩
  | element key span =>
    simp only [htarget] at h
    obtain ⟨⟨_, root⟩, walk, rfl⟩ := bind_pure_eq_some_iff.1 h
    refine (descend_keeps (P := fun _ => True) ?_ _ _ _ _ _ hd.root walk).2
    intro form es a es' hes h
    obtain ⟨es'', hpush, ⟨⟩⟩ := bind_pure_eq_some_iff.1 h
    exact ⟨trivial, pushTable?_sound hd.current hes hpush⟩

theorem openTable?_sound {key : KeyPath} {span : Span} {root : Entries} (hroot : root.Sound)
    {d : Draft} (h : openTable? key span root = some d) : d.Sound := by
  unfold openTable? at h
  obtain ⟨⟨current, root'⟩, walk, rfl⟩ := bind_pure_eq_some_iff.1 h
  -- What the table holds already comes out of the walk, so it has to be sound as well.
  have kept := descend_keeps (P := Entries.Sound) ?_ _ _ _ _ _ hroot walk
  · exact ⟨kept.2, kept.1⟩
  · intro form es a es' hes h
    cases found : es.find? key.last.name with
    | none =>
      simp only [found, Option.some.injEq, Prod.mk.injEq] at h
      obtain ⟨rfl, rfl⟩ := h
      exact ⟨.nil, hes⟩
    | some v =>
      have hv := hes.of_find? found
      obtain ⟨span', _ | _ | _ | _ | _ | _ | ⟨_ | _ | _ | _, sub⟩⟩ := v
      all_goals simp only [found, reduceCtorEq, Option.some.injEq, Prod.mk.injEq] at h
      obtain ⟨rfl, rfl⟩ := h
      exact ⟨sound_table_iff.1 hv, hes.erase⟩

theorem openElement?_sound {key : KeyPath} {span : Span} {root : Entries} (hroot : root.Sound)
    {d : Draft} (h : openElement? key span root = some d) : d.Sound := by
  unfold openElement? at h
  obtain ⟨⟨_, root'⟩, walk, rfl⟩ := bind_pure_eq_some_iff.1 h
  refine ⟨(descend_keeps (P := fun _ => True) ?_ _ _ _ _ _ hroot walk).2, .nil⟩
  intro form es a es' hes h
  cases found : es.find? key.last.name with
  | none =>
    simp only [found, Option.some.injEq, Prod.mk.injEq] at h
    obtain ⟨-, rfl⟩ := h
    exact ⟨trivial, hes.append found (sound_array_iff.2 nofun)⟩
  | some v =>
    obtain ⟨span', _ | _ | _ | _ | _ | ⟨_ | _, items⟩ | _⟩ := v
    all_goals simp only [found, reduceCtorEq, Option.some.injEq, Prod.mk.injEq] at h
    obtain ⟨-, rfl⟩ := h
    exact ⟨trivial, hes⟩

/-! ## Statements -/

/-- The values in the statement are sound. -/
def Statement.Sound : Statement → Prop
  | .pair p => p.value.2.Sound
  | .table _ _ => True
  | .element _ _ => True

/-- **One statement.** -/
theorem Draft.Sound.add {d d' : Draft} (hd : d.Sound) {statement : Statement}
    (hstatement : statement.Sound) (h : d.add? statement = some d') : d'.Sound := by
  cases statement with
  | pair pair =>
    obtain ⟨current, hadd, rfl⟩ := bind_pure_eq_some_iff.1 h
    exact ⟨hd.root, addPair?_sound hd.current hstatement hadd⟩
  | table key span =>
    obtain ⟨root, hclose, hopen⟩ := Option.bind_eq_some_iff.1 h
    exact openTable?_sound (close?_sound hd hclose) hopen
  | element key span =>
    obtain ⟨root, hclose, hopen⟩ := Option.bind_eq_some_iff.1 h
    exact openElement?_sound (close?_sound hd hclose) hopen

/-- **All statements.** -/
theorem assemble?_sound {statements : List Statement}
    (hstatements : ∀ statement ∈ statements, statement.Sound) {es : Entries}
    (h : assemble? statements = some es) : es.Sound := by
  obtain ⟨d, hadd, hclose⟩ := Option.bind_eq_some_iff.1 h
  refine close?_sound (foldlM_invariant ?_ ⟨.nil, .nil⟩ hadd) hclose
  intro statement hstatement d d' hd h
  exact hd.add (hstatements statement hstatement) h

/-! ## Texts -/

theorem scalarValue?_sound {s rest : Input} {v : Value} (h : scalarValue? s = some (v, rest)) :
    v.Sound := by
  unfold scalarValue? at h
  split at h
  · cases h
    exact .boolean true
  · cases h
    exact .boolean false
  · obtain ⟨r, -, ⟨⟩⟩ := Option.map_eq_some_iff.1 h
    exact .string r.1
  · obtain ⟨r, -, ⟨⟩⟩ := Option.map_eq_some_iff.1 h
    exact .string r.1
  · split at h
    · obtain ⟨r, -, ⟨⟩⟩ := Option.map_eq_some_iff.1 h
      exact .datetime
    split at h
    · obtain ⟨r, -, ⟨⟩⟩ := Option.map_eq_some_iff.1 h
      exact .datetime
    obtain ⟨⟨n | x, rest'⟩, -, ⟨⟩⟩ := Option.map_eq_some_iff.1 h
    · exact .integer n
    · exact .float x

/-- A reader whose values are sound. -/
def ReadsSound (item? : Input → Option (Located × Input)) : Prop :=
  ∀ s v rest, item? s = some (v, rest) → v.2.Sound

section

variable {item? : Input → Option (Located × Input)} (hitem : ReadsSound item?)
include hitem

/-- The values of an array, behind those that were read before. -/
theorem items?_sound {rounds : Nat} {read items : List Located} {s rest : Input}
    (hread : ∀ v ∈ read, v.2.Sound) (h : items? item? rounds read s = some (items, rest)) :
    ∀ v ∈ items, v.2.Sound := by
  induction rounds generalizing read s with
  | zero => cases h
  | succ rounds ih =>
    unfold items? at h
    obtain ⟨s₁, -, h⟩ := Option.bind_eq_some_iff.1 h
    split at h
    · cases h
      exact fun v hv => hread v (List.mem_reverse.1 hv)
    · obtain ⟨⟨item, s₂⟩, hone, h⟩ := Option.bind_eq_some_iff.1 h
      obtain ⟨s₃, -, h⟩ := Option.bind_eq_some_iff.1 h
      have hmore : ∀ v ∈ item :: read, v.2.Sound := by
        intro v hv
        rcases List.mem_cons.1 hv with rfl | hv
        · exact hitem _ _ _ hone
        · exact hread v hv
      split at h
      · exact ih hmore h
      · cases h
        exact fun v hv => hmore v (List.mem_reverse.1 hv)
      · cases h

theorem pair?_sound {s rest : Input} {pair : Pair} (h : pair? item? s = some (pair, rest)) :
    pair.value.2.Sound := by
  unfold pair? at h
  obtain ⟨⟨key, s₁⟩, -, h⟩ := Option.bind_eq_some_iff.1 h
  obtain ⟨s₂, -, h⟩ := Option.bind_eq_some_iff.1 h
  obtain ⟨⟨v, s₃⟩, hone, ⟨⟩⟩ := bind_pure_eq_some_iff.1 h
  exact hitem _ _ _ hone

/-- The pairs of an inline table, behind those that were read before. -/
theorem pairs?_sound {rounds : Nat} {read pairs : List Pair} {s rest : Input}
    (hread : ∀ pair ∈ read, pair.value.2.Sound)
    (h : pairs? item? rounds read s = some (pairs, rest)) :
    ∀ pair ∈ pairs, pair.value.2.Sound := by
  induction rounds generalizing read s with
  | zero => cases h
  | succ rounds ih =>
    unfold pairs? at h
    obtain ⟨⟨pair, s₁⟩, hone, h⟩ := Option.bind_eq_some_iff.1 h
    have hmore : ∀ p ∈ pair :: read, p.value.2.Sound := by
      intro p hp
      rcases List.mem_cons.1 hp with rfl | hp
      · exact pair?_sound hitem hone
      · exact hread p hp
    dsimp only at h
    split at h
    · exact ih hmore h
    · cases h
      exact fun p hp => hmore p (List.mem_reverse.1 hp)
    · cases h

end

/-- Whatever is nested in a value, no table in it gives a name twice. -/
theorem value?_sound (rounds depth : Nat) : ReadsSound (value? rounds depth) := by
  have scalar : ∀ {s rest : Input} {v : Located},
      ((scalarValue? s).map fun r => ((some ⟨s, r.2⟩, r.1), r.2)) = some (v, rest) →
        v.2.Sound := by
    intro s rest v h
    obtain ⟨r, hr, ⟨⟩⟩ := Option.map_eq_some_iff.1 h
    exact scalarValue?_sound hr
  induction depth with
  | zero =>
    intro s v rest h
    exact scalar h
  | succ depth ih =>
    intro s v rest h
    unfold value? at h
    split at h
    · obtain ⟨⟨items, s₁⟩, hitems, ⟨⟩⟩ := bind_pure_eq_some_iff.1 h
      exact sound_array_iff.2 (items?_sound ih (by simp) hitems)
    · split at h
      · cases h
        exact sound_table_iff.2 .nil
      · obtain ⟨⟨pairs, s₁⟩, hpairs, h⟩ := Option.bind_eq_some_iff.1 h
        obtain ⟨table, htable, ⟨⟩⟩ := bind_pure_eq_some_iff.1 h
        exact inlineTable?_sound (pairs?_sound ih (by simp) hpairs) htable
    · exact scalar h

theorem statement?_sound {rounds : Nat} {s rest : Input} {statement : Statement}
    (h : statement? rounds s = some (statement, rest)) : statement.Sound := by
  unfold statement? at h
  split at h
  · obtain ⟨r, -, ⟨⟩⟩ := Option.map_eq_some_iff.1 h
    trivial
  · obtain ⟨r, -, ⟨⟩⟩ := Option.map_eq_some_iff.1 h
    trivial
  · obtain ⟨⟨pair, s₁⟩, hpair, h⟩ := Option.bind_eq_some_iff.1 h
    obtain ⟨s₂, -, ⟨⟩⟩ := bind_pure_eq_some_iff.1 h
    exact pair?_sound (value?_sound rounds _) hpair

theorem statements?_sound {bound rounds : Nat} {read statements : List Statement} {s : Input}
    (hread : ∀ statement ∈ read, statement.Sound)
    (h : statements? bound rounds read s = some statements) :
    ∀ statement ∈ statements, statement.Sound := by
  induction rounds generalizing read s with
  | zero => cases h
  | succ rounds ih =>
    unfold statements? at h
    split at h
    · cases h
      exact fun statement hs => hread statement (List.mem_reverse.1 hs)
    · split at h
      · obtain ⟨s₁, -, h⟩ := Option.bind_eq_some_iff.1 h
        exact ih hread h
      · obtain ⟨⟨statement, s₁⟩, hone, h⟩ := Option.bind_eq_some_iff.1 h
        refine ih (fun st hst => ?_) h
        rcases List.mem_cons.1 hst with rfl | hst
        · exact statement?_sound hone
        · exact hread st hst

/-- **Documents are sound.** No table of a text that can be read gives a name twice. -/
theorem parse?_sound {text : String} {es : Entries} (h : parse? text = some es) : es.Sound := by
  obtain ⟨statements, hread, hassemble⟩ := Option.bind_eq_some_iff.1 h
  exact assemble?_sound (statements?_sound (by simp) hread) hassemble

end Toml

end FixtureSuite
