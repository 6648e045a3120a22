import FixtureSuite.Config.Load
import FixtureSuite.Proofs.Chain
import FixtureSuite.Proofs.Toml.Sound

/-!
# Which texts are configurations

`Config.Described` says what the data of a document make of a configuration, without a word on how
they are read: which names there may be, what a value of each has to be, and that a setting without
a value keeps its default. It sees the data only, so the order of the keys and the spelling of the
tables do not matter.

Decoding takes the keys one after the other and changes a setting at each. `described_cons` is the
step: what a decoded entry does to the settings is what its value does to the data, provided that
its name is new. `entries_decode` puts the steps together for any kind of settings, and is where
the soundness of tables comes in.
-/

namespace FixtureSuite

open Toml

/-! ## What a value says -/

namespace Toml.Data

def SaysString (d : Data) (text : String) : Prop :=
  d = .string text

def SaysPath (d : Data) (path : Path) : Prop :=
  ∃ text, d = .string text ∧ path = .ofString text

def SaysInt32 (d : Data) (n : Int) : Prop :=
  d = .integer n ∧ -2147483648 ≤ n ∧ n ≤ 2147483647

def SaysStrings (d : Data) (texts : List String) : Prop :=
  d = .array (texts.map .string)

/-- A table or an array that holds nothing. -/
def HoldsNothing (d : Data) : Prop :=
  d = .table (fun _ => none) ∨ d = .array []

/-- A color choice is its name, or a table with the name as its only key and nothing behind it. -/
def SaysColor (d : Data) (color : ColorChoice) : Prop :=
  d = .string color.name ∨
    ∃ v : Data, v.HoldsNothing ∧ d = .table (Function.update (fun _ => none) color.name (some v))

end Toml.Data

open Toml.Data

/-- A setting is what its value says, or the default if there is no value. -/
def Gives {α : Type} (Says : Data → α → Prop) (default : α) : Option Data → α → Prop
  | none, a => a = default
  | some d, a => Says d a

@[simp] theorem gives_none {α : Type} {Says : Data → α → Prop} {default a : α} :
    Gives Says default none a ↔ a = default := Iff.rfl

@[simp] theorem gives_some {α : Type} {Says : Data → α → Prop} {default a : α} {d : Data} :
    Gives Says default (some d) a ↔ Says d a := Iff.rfl

/-- A table that has no other names than these. -/
def OnlyNames (names : List String) (T : String → Option Data) : Prop :=
  ∀ name, T name ≠ none → name ∈ names

/-- The settings of a target that the table `T` makes of those of `base`. -/
@[mk_iff] structure TargetConfig.Described (base : TargetConfig) (T : String → Option Data)
    (t : TargetConfig) : Prop where
  names : OnlyNames ["program", "args"] T
  program : Gives SaysPath base.program (T "program") t.program
  arguments : Gives SaysStrings base.arguments (T "args") t.arguments

/-- A target is a table of its settings, or an array of them: first the program, then the arguments,
and whatever follows is of no account. -/
def Toml.Data.SaysTarget (d : Data) (t : TargetConfig) : Prop :=
  (∃ T, d = .table T ∧ TargetConfig.Described {} T t) ∨
    ∃ items, d = .array items ∧
      Gives SaysPath ({} : TargetConfig).program items[0]? t.program ∧
      Gives SaysStrings ({} : TargetConfig).arguments items[1]? t.arguments

/-- The settings that the table `T` makes of those of `base`. -/
@[mk_iff] structure Config.Described (base : Config) (T : String → Option Data) (c : Config) :
    Prop where
  names : OnlyNames ["fixture_dir", "negative_prefix", "crash_exit_code", "color", "target"] T
  fixtureDir : Gives SaysPath base.fixtureDir (T "fixture_dir") c.fixtureDir
  marker : Gives SaysString base.marker (T "negative_prefix") c.marker
  crashCode : Gives SaysInt32 base.crashCode (T "crash_exit_code") c.crashCode
  color : Gives SaysColor base.color (T "color") c.color
  target : Gives SaysTarget base.target (T "target") c.target

/-! ## Single values -/

/-- The decoder accepts what says something, and gives what it says. -/
def Decodes {α : Type} (decoder : Decoder α) (Says : Data → α → Prop) : Prop :=
  ∀ v a, v.2.Sound → (decoder v = .ok a ↔ Says v.2.data a)

theorem decodeString_decodes (wanted : Wanted) : Decodes (decodeString wanted) SaysString := by
  rintro ⟨span, v⟩ text -
  cases v <;> simp [decodeString, mistyped, SaysString]

theorem decodePath_decodes : Decodes decodePath SaysPath := by
  intro v path hv
  have hmap : decodePath v = .ok path ↔ ∃ text, decodeString .path v = .ok text ∧
      path = .ofString text := by
    unfold decodePath
    cases decodeString .path v <;> simp [Except.map, eq_comm]
  simp only [hmap, decodeString_decodes .path v _ hv, SaysString, SaysPath]

theorem decodeInteger_decodes : Decodes decodeInteger SaysInt32 := by
  rintro ⟨span, v⟩ n -
  cases v with
  | integer m =>
    simp only [decodeInteger, data_integer, SaysInt32, Data.integer.injEq]
    split
    · rename_i hm
      simp only [isInt32, Bool.and_eq_true, decide_eq_true_eq] at hm
      simp only [Except.ok.injEq]
      omega
    · rename_i hm
      simp only [isInt32, Bool.and_eq_true, decide_eq_true_eq] at hm
      simp only [reduceCtorEq, false_iff]
      omega
  | _ => simp [decodeInteger, mistyped, SaysInt32]

theorem decodeStrings_decodes : Decodes decodeStrings SaysStrings := by
  rintro ⟨span, v⟩ texts hv
  cases v with
  | array tables items =>
    have hitems := sound_array_iff.1 hv
    simp only [decodeStrings, data_array, SaysStrings, Data.array.injEq]
    clear hv
    induction items generalizing texts with
    | nil => cases texts <;> simp
    | cons item rest ih =>
      have hone : ∀ text, decodeString .string item = .ok text ↔ item.2.data = .string text :=
        fun text => decodeString_decodes .string item text (hitems item List.mem_cons_self)
      have hrest : ∀ texts, rest.mapM (decodeString .string) = .ok texts ↔
          rest.map (fun item => item.2.data) = texts.map .string :=
        fun texts => ih texts fun item h => hitems item (List.mem_cons_of_mem _ h)
      cases texts with
      | nil => simp [List.mapM_cons, bind_eq_ok_iff]
      | cons text texts =>
        simp [List.mapM_cons, bind_eq_ok_iff, hone, hrest]
  | _ => simp [decodeStrings, mistyped, SaysStrings]

/-! ## Colors -/

theorem ofName?_eq_some_iff {name : String} {color : ColorChoice} :
    ColorChoice.ofName? name = some color ↔ name = color.name := by
  constructor
  · intro h
    unfold ColorChoice.ofName? at h
    have hname := List.find?_some h
    exact (beq_iff_eq.1 hname).symm
  · rintro rfl
    cases color <;> decide

theorem decodeColorName_eq_ok_iff {name : String} {span : Option Span} {color : ColorChoice} :
    decodeColorName name span = .ok color ↔ name = color.name := by
  rw [← ofName?_eq_some_iff, decodeColorName]
  cases ColorChoice.ofName? name <;> simp

theorem Toml.Entries.data_eq_empty_iff {es : Entries} : (es.data = fun _ => none) ↔ es = [] := by
  constructor
  · intro h
    cases es with
    | nil => rfl
    | cons e rest =>
      have := congrFun h e.1.name
      simp at this
  · rintro rfl
    exact Entries.data_nil

theorem checkEmpty_eq_ok_iff {v : Located} {u : Unit} :
    checkEmpty v = .ok u ↔ v.2.data.HoldsNothing := by
  obtain ⟨span, v⟩ := v
  cases v with
  | array tables items => cases items <;> simp [checkEmpty, HoldsNothing]
  | table form es =>
    cases es <;>
      simp [checkEmpty, HoldsNothing, -Entries.data_cons, Entries.data_eq_empty_iff]
  | _ => simp [checkEmpty, HoldsNothing]

/-- A sound table that says something of one name only has one entry. -/
theorem data_ne_single {e e' : Key × Located} {rest : Entries} (h : Entries.Sound (e :: e' :: rest))
    (name : String) (d : Data) :
    Entries.data (e :: e' :: rest) ≠ Function.update (fun _ => none) name (some d) := by
  intro hdata
  have only : ∀ n ∈ Entries.names (e :: e' :: rest), n = name := by
    intro n hn
    by_contra hne
    have hnone : Entries.data (e :: e' :: rest) n = none := by
      rw [hdata, Function.update_of_ne hne]
    exact Entries.data_eq_none_iff.1 hnone hn
  have hfirst := only e.1.name (by simp [Entries.names])
  have hsecond := only e'.1.name (by simp [Entries.names])
  obtain ⟨hnew, -⟩ := Entries.sound_cons_iff.1 h
  exact hnew (by simp [Entries.names, hfirst, hsecond])

theorem single_eq_single_iff {name name' : String} {d d' : Data} :
    Function.update (fun _ => none) name (some d)
        = Function.update (fun _ => none) name' (some d') ↔
      name = name' ∧ d = d' := by
  constructor
  · intro h
    have hname := congrFun h name
    rw [Function.update_self] at hname
    by_cases heq : name = name'
    · subst heq
      rw [Function.update_self] at hname
      exact ⟨rfl, Option.some.inj hname⟩
    · rw [Function.update_of_ne heq] at hname
      cases hname
  · rintro ⟨rfl, rfl⟩
    rfl

theorem decodeColor_decodes : Decodes decodeColor SaysColor := by
  rintro ⟨span, v⟩ color hv
  cases v with
  | string name => simp [decodeColor, decodeColorName_eq_ok_iff, SaysColor]
  | table form es =>
    rw [sound_table_iff] at hv
    rcases es with _ | ⟨⟨key, value⟩, _ | ⟨e', rest⟩⟩
    · simp only [decodeColor, reduceCtorEq, false_iff]
      rintro (h | ⟨v, -, h⟩)
      · cases h
      · have := congrFun (Data.table.inj ((data_table _ _).symm.trans h)) color.name
        simp at this
    · simp [decodeColor, SaysColor, bind_eq_ok_iff, decodeColorName_eq_ok_iff, mapError_eq_ok_iff,
        checkEmpty_eq_ok_iff, single_eq_single_iff, and_comm]
    · simp [decodeColor, SaysColor, -Entries.data_cons, data_ne_single hv]
  | _ => simp [decodeColor, SaysColor]

/-! ## Entries -/

/-- A setting is put in by its decoder, and only if the value of its key says one. -/
theorem decodeAt_put {α γ : Type} {key : Key} {decoder : Decoder α} {Says : Data → α → Prop}
    (h : Decodes decoder Says) {v : Located} (hv : v.2.Sound) {put : α → γ} {c : γ} :
    (decodeAt key decoder v >>= fun a => Except.ok (put a)) = .ok c ↔
      ∃ a, Says v.2.data a ∧ put a = c := by
  simp only [bind_eq_ok_iff, decodeAt, mapError_eq_ok_iff, h v _ hv, Except.ok.injEq]

theorem onlyNames_empty (names : List String) : OnlyNames names fun _ => none :=
  fun _ h => absurd rfl h

theorem onlyNames_update {names : List String} {T : String → Option Data} {name : String}
    {d : Data} :
    OnlyNames names (Function.update T name (some d)) ↔ name ∈ names ∧ OnlyNames names T := by
  constructor
  · intro h
    refine ⟨h name (by simp), fun n hn => h n ?_⟩
    by_cases hname : n = name
    · simp [hname]
    · rwa [Function.update_of_ne hname]
  · rintro ⟨hname, h⟩ n hn
    by_cases heq : n = name
    · rwa [heq]
    · rw [Function.update_of_ne heq] at hn
      exact h n hn

/-- **All entries.** What single entries do to the settings, they do together, as no name comes
twice. -/
theorem entries_decode {γ : Type} {step : γ → Key × Located → Except Fault γ}
    {Described : γ → (String → Option Data) → γ → Prop}
    (hnil : ∀ c c', Described c (fun _ => none) c' ↔ c' = c)
    (hcons : ∀ c e T c', e.2.2.Sound → T e.1.name = none →
      (Described c (Function.update T e.1.name (some e.2.2.data)) c' ↔
        ∃ c₁, step c e = .ok c₁ ∧ Described c₁ T c'))
    {es : Entries} (hes : es.Sound) {c c' : γ} :
    es.foldlM step c = .ok c' ↔ Described c es.data c' := by
  induction es generalizing c with
  | nil => simp [hnil, eq_comm]
  | cons e rest ih =>
    obtain ⟨hnew, hvalue, hrest⟩ := Entries.sound_cons_iff.1 hes
    rw [List.foldlM_cons, bind_eq_ok_iff, Entries.data_cons,
      hcons c e _ c' hvalue (Entries.data_eq_none_iff.2 hnew)]
    simp only [ih hrest]

theorem TargetConfig.described_nil (t t' : TargetConfig) :
    TargetConfig.Described t (fun _ => none) t' ↔ t' = t := by
  obtain ⟨program, arguments⟩ := t
  obtain ⟨program', arguments'⟩ := t'
  simp [TargetConfig.described_iff, onlyNames_empty]

theorem TargetConfig.described_cons (t : TargetConfig) (e : Key × Located)
    (T : String → Option Data) (t' : TargetConfig) (hv : e.2.2.Sound) (hnew : T e.1.name = none) :
    TargetConfig.Described t (Function.update T e.1.name (some e.2.2.data)) t' ↔
      ∃ t₁, decodeTargetEntry t e = .ok t₁ ∧ TargetConfig.Described t₁ T t' := by
  obtain ⟨⟨name, place⟩, v⟩ := e
  dsimp only at hv hnew ⊢
  simp only [TargetConfig.described_iff, onlyNames_update]
  by_cases hprogram : name = "program"
  · subst hprogram
    simp [decodeTargetEntry, decodeAt_put decodePath_decodes hv, hnew, and_left_comm]
  by_cases harguments : name = "args"
  · subst harguments
    simp [decodeTargetEntry, decodeAt_put decodeStrings_decodes hv, hnew, and_left_comm]
  simp [decodeTargetEntry, hprogram, harguments]

theorem decodeTargetItems_eq_ok_iff {items : List Located} (hitems : ∀ item ∈ items, item.2.Sound)
    {t : TargetConfig} : decodeTargetItems items = .ok t ↔
      Gives SaysPath ({} : TargetConfig).program (items.map fun item => item.2.data)[0]? t.program ∧
      Gives SaysStrings ({} : TargetConfig).arguments (items.map fun item => item.2.data)[1]?
        t.arguments := by
  obtain ⟨program, arguments⟩ := t
  rcases items with _ | ⟨first, _ | ⟨second, rest⟩⟩
  · simp [decodeTargetItems, eq_comm]
  · have hfirst := decodePath_decodes first program (hitems _ (by simp))
    simpa [decodeTargetItems, bind_eq_ok_iff, hfirst] using fun _ => eq_comm
  · have hfirst := decodePath_decodes first program (hitems _ (by simp))
    have hsecond := decodeStrings_decodes second arguments (hitems _ (by simp))
    simp [decodeTargetItems, bind_eq_ok_iff, hfirst, hsecond]

theorem decodeTarget_decodes : Decodes decodeTarget SaysTarget := by
  rintro ⟨span, v⟩ t hv
  cases v with
  | table form es =>
    rw [decodeTarget, entries_decode TargetConfig.described_nil TargetConfig.described_cons
      (sound_table_iff.1 hv)]
    simp [SaysTarget]
  | array tables items =>
    rw [decodeTarget, decodeTargetItems_eq_ok_iff (sound_array_iff.1 hv)]
    simp [SaysTarget]
  | _ => simp [decodeTarget, mistyped, SaysTarget]

theorem Config.described_nil (c c' : Config) : Config.Described c (fun _ => none) c' ↔ c' = c := by
  obtain ⟨fixtureDir, marker, crashCode, color, target⟩ := c
  obtain ⟨fixtureDir', marker', crashCode', color', target'⟩ := c'
  simp [Config.described_iff, onlyNames_empty]

theorem Config.described_cons (c : Config) (e : Key × Located) (T : String → Option Data)
    (c' : Config) (hv : e.2.2.Sound) (hnew : T e.1.name = none) :
    Config.Described c (Function.update T e.1.name (some e.2.2.data)) c' ↔
      ∃ c₁, decodeEntry c e = .ok c₁ ∧ Config.Described c₁ T c' := by
  obtain ⟨⟨name, place⟩, v⟩ := e
  dsimp only at hv hnew ⊢
  simp only [Config.described_iff, onlyNames_update]
  by_cases hdir : name = "fixture_dir"
  · subst hdir
    simp [decodeEntry, decodeAt_put decodePath_decodes hv, hnew, and_left_comm]
  by_cases hmarker : name = "negative_prefix"
  · subst hmarker
    simp [decodeEntry, decodeAt_put (decodeString_decodes .string) hv, hnew, and_left_comm]
  by_cases hcode : name = "crash_exit_code"
  · subst hcode
    simp [decodeEntry, decodeAt_put decodeInteger_decodes hv, hnew, and_left_comm]
  by_cases hcolor : name = "color"
  · subst hcolor
    simp [decodeEntry, decodeAt_put decodeColor_decodes hv, hnew, and_left_comm]
  by_cases htarget : name = "target"
  · subst htarget
    simp [decodeEntry, decodeAt_put decodeTarget_decodes hv, hnew, and_left_comm]
  simp [decodeEntry, hdir, hmarker, hcode, hcolor, htarget]

/-! ## Texts -/

theorem Config.decode_eq_ok_iff {es : Entries} (hes : es.Sound) {c : Config} :
    Config.decode es = .ok c ↔ Config.Described {} es.data c :=
  entries_decode Config.described_nil Config.described_cons hes

theorem Config.validate_eq_ok_iff {c c' : Config} :
    c.validate = .ok c' ↔ (c.target.program.bytes ≠ [] ∧ c.marker ≠ "") ∧ c = c' := by
  unfold Config.validate Config.check
  by_cases hprogram : c.target.program.bytes = []
  · simp [hprogram]
  by_cases hmarker : c.marker = ""
  · simp [hprogram, hmarker]
  · simp [hprogram, hmarker]

theorem Config.ofText_eq_ok_iff {text : String} {es : Entries} (valid : parse? text = some es)
    {c : Config} : Config.ofText text = .ok c ↔
      Config.Described {} es.data c ∧ c.target.program.bytes ≠ [] ∧ c.marker ≠ "" := by
  have hread : ∀ c, Config.read textOrigin text = .ok c ↔ Config.Described {} es.data c := by
    intro c
    simp only [Config.read, valid, mapError_eq_ok_iff]
    exact Config.decode_eq_ok_iff (parse?_sound valid)
  unfold Config.ofText
  simp only [bind_eq_ok_iff, hread, Config.validate_eq_ok_iff]
  constructor
  · rintro ⟨c', described, sensible, rfl⟩
    exact ⟨described, sensible⟩
  · rintro ⟨described, sensible⟩
    exact ⟨c, described, sensible, rfl⟩

/-- **A configuration follows its data.** A text that can be read is accepted as a configuration
exactly if its data describe one over the defaults and neither the program nor the prefix is empty,
and it is that configuration that it is accepted as. So two texts with the same data, whatever the
order of their keys and the spelling of their tables, are the same configuration or none. -/
theorem Config.ofText_follows_data {text : String} {es : Entries}
    (valid : parse? text = some es) :
    (∀ c, Config.ofText text = .ok c ↔
      Config.Described {} es.data c ∧ c.target.program.bytes ≠ [] ∧ c.marker ≠ "") ∧
    ∀ text' es', parse? text' = some es' → es'.data = es.data →
      ∀ c, Config.ofText text' = .ok c ↔ Config.ofText text = .ok c := by
  refine ⟨fun c => Config.ofText_eq_ok_iff valid, ?_⟩
  intro text' es' valid' same c
  rw [Config.ofText_eq_ok_iff valid, Config.ofText_eq_ok_iff valid', same]

/-- A target by a dotted key in front, and under a header behind. -/
theorem Config.ofText_follows_data_reordered :
    ∃ es es', parse? "target.args = []\ncrash_exit_code = 7" = some es ∧
      parse? "crash_exit_code = 0x7\n[target]\nargs = []" = some es' ∧ es'.data = es.data ∧
      Config.Described {} es.data { crashCode := 7, target := { arguments := [] } } ∧
      ∀ c, Config.ofText "crash_exit_code = 0x7\n[target]\nargs = []" = .ok c ↔
        Config.ofText "target.args = []\ncrash_exit_code = 7" = .ok c := by
  obtain ⟨es, es', valid, valid', same⟩ : ∃ es es',
      parse? "target.args = []\ncrash_exit_code = 7" = some es ∧
      parse? "crash_exit_code = 0x7\n[target]\nargs = []" = some es' ∧ es'.data = es.data := by
    -- Where something was written is found by reading; the data do not have it.
    refine ⟨[(⟨"target", _⟩, _, .table _ [(⟨"args", _⟩, _, .array false [])]),
        (⟨"crash_exit_code", _⟩, _, .integer 7)],
      [(⟨"crash_exit_code", _⟩, _, .integer 7),
        (⟨"target", _⟩, _, .table _ [(⟨"args", _⟩, _, .array false [])])], rfl, rfl, ?_⟩
    simp only [Entries.data_cons, data_table, data_integer]
    exact Function.update_comm (by decide) ..
  have accepted : Config.ofText "target.args = []\ncrash_exit_code = 7"
      = .ok { crashCode := 7, target := { arguments := [] } } := rfl
  obtain ⟨accepts, agrees⟩ := Config.ofText_follows_data valid
  exact ⟨es, es', valid, valid', same, ((accepts _).1 accepted).1, agrees _ es' valid' same⟩

end FixtureSuite
