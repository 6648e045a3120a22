import FixtureSuite.Toml.Value
import Mathlib.Logic.Function.Basic
import Mathlib.Data.List.Nodup

/-!
# What a document says

Values remember how they were written: where, in which order the keys of a table came, and whether
the table stood between braces, under a header or came about through longer keys. `Data` is what is
left without all that. A table is the values of its names, so two tables say the same if they give
the same names the same values, however they were put down.

A reader of tables sees no more than that only if no name occurs twice in a table. `Sound` says so
of a value and of everything in it.
-/

namespace FixtureSuite

namespace Toml

/-! ## Data -/

/-- What a value says, whatever the way in which it is written. -/
inductive Data where
  | string (text : String)
  | integer (n : Int)
  | float (x : Binary64)
  | boolean (b : Bool)
  | datetime
  | array (items : List Data)
  | table (values : String → Option Data)

mutual

def Value.data : Value → Data
  | .string text => .string text
  | .integer n => .integer n
  | .float x => .float x
  | .boolean b => .boolean b
  | .datetime => .datetime
  | .array _ items => .array (itemsData items)
  | .table _ entries => .table (Entries.data entries)

/-- What the values of an array say, in order. -/
def itemsData : List Located → List Data
  | [] => []
  | (_, v) :: rest => v.data :: itemsData rest

/-- What a table says of each name; of a name that occurs twice the first value counts. -/
def Entries.data : Entries → String → Option Data
  | [] => fun _ => none
  | (key, _, v) :: rest => Function.update (Entries.data rest) key.name (some v.data)

end

@[simp] theorem data_string (text : String) : (Value.string text).data = .string text := rfl

@[simp] theorem data_integer (n : Int) : (Value.integer n).data = .integer n := rfl

@[simp] theorem data_float (x : Binary64) : (Value.float x).data = .float x := rfl

@[simp] theorem data_boolean (b : Bool) : (Value.boolean b).data = .boolean b := rfl

@[simp] theorem data_datetime : Value.datetime.data = .datetime := rfl

@[simp] theorem data_array (tables : Bool) (items : List Located) :
    (Value.array tables items).data = .array (items.map fun item => item.2.data) := by
  have hitems : itemsData items = items.map fun item => item.2.data := by
    induction items with
    | nil => rw [itemsData, List.map_nil]
    | cons item rest ih => rw [itemsData, List.map_cons, ih]
  rw [Value.data, hitems]

namespace Entries

def names (es : Entries) : List String :=
  es.map fun e => e.1.name

end Entries

@[simp] theorem data_table (form : Form) (es : Entries) :
    (Value.table form es).data = .table es.data := rfl

@[simp] theorem Entries.data_nil : Entries.data [] = fun _ => none := rfl

@[simp] theorem Entries.data_cons (e : Key × Located) (rest : Entries) :
    Entries.data (e :: rest) = Function.update (Entries.data rest) e.1.name (some e.2.2.data) := rfl

/-- A table says something of the names that occur in it. -/
theorem Entries.data_eq_none_iff {es : Entries} {name : String} :
    es.data name = none ↔ name ∉ es.names := by
  induction es with
  | nil => simp [Entries.names]
  | cons e rest ih =>
    by_cases h : name = e.1.name
    · simp [h, Entries.names]
    · simpa [Function.update_of_ne h, h, Entries.names] using ih

/-! ## Sound values -/

/-- No table in the value gives a name twice. -/
inductive Value.Sound : Value → Prop
  | string (text : String) : Sound (.string text)
  | integer (n : Int) : Sound (.integer n)
  | float (x : Binary64) : Sound (.float x)
  | boolean (b : Bool) : Sound (.boolean b)
  | datetime : Sound .datetime
  | array (tables : Bool) (items : List Located) (values : ∀ item ∈ items, Sound item.2) :
      Sound (.array tables items)
  | table (form : Form) (es : Entries) (names : es.names.Nodup) (values : ∀ e ∈ es, Sound e.2.2) :
      Sound (.table form es)

/-- A table that gives no name twice, and whose values are sound. -/
structure Entries.Sound (es : Entries) : Prop where
  names : es.names.Nodup
  values : ∀ e ∈ es, e.2.2.Sound

theorem sound_array_iff {tables : Bool} {items : List Located} :
    (Value.array tables items).Sound ↔ ∀ item ∈ items, item.2.Sound := by
  constructor
  · rintro ⟨⟩
    assumption
  · exact .array tables items

theorem sound_table_iff {form : Form} {es : Entries} :
    (Value.table form es).Sound ↔ es.Sound := by
  constructor
  · rintro (_ | _ | _ | _ | _ | _ | ⟨_, _, names, values⟩)
    exact ⟨names, values⟩
  · rintro ⟨names, values⟩
    exact .table form es names values

namespace Entries

variable {es : Entries} {key : Key} {name : String} {v : Located}

theorem Sound.nil : Sound [] :=
  ⟨List.nodup_nil, by simp⟩

theorem sound_cons_iff {e : Key × Located} :
    Sound (e :: es) ↔ e.1.name ∉ es.names ∧ e.2.2.Sound ∧ es.Sound := by
  constructor
  · rintro ⟨hnames, hvalues⟩
    obtain ⟨hnew, hnames⟩ := List.nodup_cons.1 hnames
    exact ⟨hnew, hvalues e List.mem_cons_self,
      hnames, fun e' he => hvalues e' (List.mem_cons_of_mem e he)⟩
  · rintro ⟨hnew, hvalue, hnames, hvalues⟩
    refine ⟨List.nodup_cons.2 ⟨hnew, hnames⟩, fun e' he => ?_⟩
    rcases List.mem_cons.1 he with rfl | he
    · exact hvalue
    · exact hvalues e' he

theorem find?_eq_none (h : es.find? name = none) : name ∉ es.names := by
  intro hname
  obtain ⟨e, he, rfl⟩ := List.mem_map.1 hname
  rw [find?, Option.map_eq_none_iff, List.find?_eq_none] at h
  simpa using h e he

theorem mem_of_find? (h : es.find? name = some v) : ∃ key, (key, v) ∈ es ∧ key.name = name := by
  rw [find?, Option.map_eq_some_iff] at h
  obtain ⟨⟨key, v'⟩, hfind, rfl⟩ := h
  exact ⟨key, List.mem_of_find?_eq_some hfind, by simpa using List.find?_some hfind⟩

theorem Sound.of_find? (hes : es.Sound) (h : es.find? name = some v) : v.2.Sound := by
  obtain ⟨key, hmem, -⟩ := mem_of_find? h
  exact hes.values _ hmem

/-- A name that was not there is added. -/
theorem Sound.append (hes : es.Sound) (hnew : es.find? key.name = none) (hv : v.2.Sound) :
    Sound (es ++ [(key, v)]) := by
  refine ⟨?_, ?_⟩
  · rw [Entries.names, List.map_append, List.map_singleton, List.nodup_append_comm]
    exact List.nodup_cons.2 ⟨find?_eq_none hnew, hes.names⟩
  · intro e he
    rcases List.mem_append.1 he with he | he
    · exact hes.values e he
    · obtain rfl := List.mem_singleton.1 he
      exact hv

theorem Sound.add (hes : es.Sound) (hv : v.2.Sound) {es' : Entries}
    (h : es.add? key v = some es') : es'.Sound := by
  unfold add? at h
  split at h
  · cases h
  · rename_i hnew
    cases h
    exact hes.append hnew hv

theorem Sound.replace (hes : es.Sound) (hv : v.2.Sound) : (es.replace name v).Sound := by
  refine ⟨?_, ?_⟩
  · have hnames : (es.replace name v).names = es.names := by
      simp only [Entries.names, Entries.replace, List.map_map]
      refine List.map_congr_left fun e _ => ?_
      simp only [Function.comp_apply]
      split <;> rfl
    rw [hnames]
    exact hes.names
  · intro e he
    obtain ⟨e', he', rfl⟩ := List.mem_map.1 he
    split
    · exact hv
    · exact hes.values e' he'

theorem Sound.erase (hes : es.Sound) : (es.erase name).Sound := by
  refine ⟨?_, fun e he => hes.values e (List.mem_filter.1 he).1⟩
  exact hes.names.sublist (List.filter_sublist.map _)

end Entries

end Toml

end FixtureSuite
