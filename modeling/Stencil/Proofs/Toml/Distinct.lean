import Stencil.Toml.Reader
import Stencil.Proofs.Journaled
import Mathlib.Data.List.Nodup

/-!
# Keys of tables — no key is defined twice

A table changes in one way only: the value under one key is changed, or a key that is not there
yet is added at the end (`alter_cases`). So whatever dotted keys and headers do to a table and to
the tables in it, no key comes to stand twice in one of them, and every table of a text that can
be read has distinct keys (`distinct_read`).
-/

namespace Stencil.Toml

/-- A value that holds other values. -/
def Value.isContainer : Value → Bool
  | .array _ => true
  | .table _ _ => true
  | .tables _ => true
  | _ => false

/-- The keys of a table, in the order of their definition. -/
def Entries.keys (entries : Entries) : List String :=
  entries.map Prod.fst

/-- No table in a value has a key twice. -/
inductive Value.Distinct : Value → Prop where
  | single {value : Value} (h : value.isContainer = false) : Distinct value
  | array {items : List Value} (values : ∀ item ∈ items, Distinct item) : Distinct (.array items)
  | table {kind : TableKind} {entries : Entries} (keys : entries.keys.Nodup)
      (values : ∀ entry ∈ entries, Distinct entry.2) : Distinct (.table kind entries)
  | tables {elements : List Entries} (keys : ∀ entries ∈ elements, entries.keys.Nodup)
      (values : ∀ entries ∈ elements, ∀ entry ∈ entries, Distinct entry.2) :
      Distinct (.tables elements)

/-- No key stands twice, neither in these entries nor in a table in one of them. -/
structure Entries.Distinct (entries : Entries) : Prop where
  keys : entries.keys.Nodup
  values : ∀ entry ∈ entries, entry.2.Distinct

theorem Value.distinct_table_iff {kind : TableKind} {entries : Entries} :
    (Value.table kind entries).Distinct ↔ entries.Distinct := by
  constructor
  · intro h
    cases h with
    | single h => exact nomatch h
    | table keys values => exact ⟨keys, values⟩
  · intro h
    exact .table h.keys h.values

theorem Value.distinct_tables_iff {elements : List Entries} :
    (Value.tables elements).Distinct ↔ ∀ entries ∈ elements, entries.Distinct := by
  constructor
  · intro h entries hmem
    cases h with
    | single h => exact nomatch h
    | tables keys values => exact ⟨keys entries hmem, values entries hmem⟩
  · intro h
    exact .tables (fun entries hmem => (h entries hmem).keys)
      fun entries hmem => (h entries hmem).values

namespace Entries

theorem distinct_nil : Entries.Distinct [] :=
  ⟨List.nodup_nil, List.forall_mem_nil _⟩

-- ── Changing one value ──────────────────────────────────────────────────────

/-- **Changing a table**: the value of a key changes in its place, or the key is new and comes
    last. -/
theorem alter_cases {ε : Type} {f : Option Value → Except ε Value} {key : String}
    {entries altered : Entries} (h : alter f key entries = .ok altered) :
    (∃ before old value after, entries = before ++ (key, old) :: after ∧
        f (some old) = .ok value ∧ altered = before ++ (key, value) :: after) ∨
      ∃ value, key ∉ entries.keys ∧ f none = .ok value ∧ altered = entries ++ [(key, value)] := by
  induction entries generalizing altered with
  | nil =>
      obtain ⟨value, hvalue, rfl⟩ := Journaled.map_eq_ok_iff.mp h
      exact .inr ⟨value, List.not_mem_nil, hvalue, rfl⟩
  | cons entry entries ih =>
      obtain ⟨name, old⟩ := entry
      rw [alter] at h
      by_cases hname : name = key
      · subst hname
        rw [if_pos rfl] at h
        obtain ⟨value, hvalue, rfl⟩ := Journaled.map_eq_ok_iff.mp h
        exact .inl ⟨[], old, value, entries, rfl, hvalue, rfl⟩
      · rw [if_neg hname] at h
        obtain ⟨rest, hrest, rfl⟩ := Journaled.map_eq_ok_iff.mp h
        rcases ih hrest with ⟨before, old', value, after, rfl, hvalue, rfl⟩ |
          ⟨value, hkey, hvalue, rfl⟩
        · exact .inl ⟨(name, old) :: before, old', value, after, rfl, hvalue, rfl⟩
        · refine .inr ⟨value, ?_, hvalue, rfl⟩
          exact List.not_mem_cons_of_ne_of_not_mem (Ne.symm hname) hkey

/-- A change keeps keys distinct if what it puts under a key is so. -/
theorem distinct_alter {ε : Type} {f : Option Value → Except ε Value} {key : String}
    {entries altered : Entries} (hentries : entries.Distinct)
    (hnew : ∀ value, f none = .ok value → value.Distinct)
    (hold : ∀ old value, old.Distinct → f (some old) = .ok value → value.Distinct)
    (h : alter f key entries = .ok altered) : altered.Distinct := by
  rcases alter_cases h with ⟨before, old, value, after, rfl, hvalue, rfl⟩ |
    ⟨value, hkey, hvalue, rfl⟩
  · have hdistinct := hold old value (hentries.values (key, old) (by simp)) hvalue
    refine ⟨?_, ?_⟩
    · have hkeys := hentries.keys
      rw [keys, List.map_append, List.map_cons] at hkeys ⊢
      exact hkeys
    · intro entry hmem
      rcases List.mem_append.mp hmem with hbefore | hafter
      · exact hentries.values entry (List.mem_append_left _ hbefore)
      · rcases List.mem_cons.mp hafter with rfl | hafter
        · exact hdistinct
        · exact hentries.values entry (List.mem_append_right _ (List.mem_cons_of_mem _ hafter))
  · refine ⟨?_, ?_⟩
    · rw [keys, List.map_append, List.map_singleton, ← List.concat_eq_append, List.nodup_concat]
      exact ⟨hkey, hentries.keys⟩
    · intro entry hmem
      rcases List.mem_append.mp hmem with hbefore | hlast
      · exact hentries.values entry hbefore
      · rw [List.mem_singleton.mp hlast]
        exact hnew value hvalue

/-- The same of a list of tables when its last table is changed. -/
theorem distinct_tables_last {elements : List Entries} {last : Entries}
    (h : (Value.tables elements).Distinct) (hlast : last.Distinct) :
    (Value.tables (elements.dropLast ++ [last])).Distinct := by
  refine Value.distinct_tables_iff.mpr ?_
  intro entries hmem
  rcases List.mem_append.mp hmem with hbefore | hmem
  · exact Value.distinct_tables_iff.mp h entries ((List.dropLast_sublist _).subset hbefore)
  · rw [List.mem_singleton.mp hmem]
    exact hlast

/-- The last one of tables without repetitions has none. -/
theorem distinct_getLastD {elements : List Entries} (h : (Value.tables elements).Distinct) :
    (elements.getLastD []).Distinct := by
  cases elements with
  | nil => exact distinct_nil
  | cons entries elements =>
      rw [List.getLastD_cons]
      exact Value.distinct_tables_iff.mp h _ (List.getLastD_mem_cons ..)

-- ── Dotted keys and headers ─────────────────────────────────────────────────

theorem distinct_add {key : String} {value : Value} {entries altered : Entries}
    (hentries : entries.Distinct) (hvalue : value.Distinct)
    (h : entries.add key value = .ok altered) : altered.Distinct := by
  refine distinct_alter hentries ?_ ?_ h
  · intro other hother
    obtain rfl := Except.ok.inj hother
    exact hvalue
  · intro old other hold hother
    exact nomatch hother

/-- Adding an entry below a path repeats no key. -/
theorem distinct_addDotted {key : String} {value : Value} {path : List String}
    {entries altered : Entries} (hentries : entries.Distinct) (hvalue : value.Distinct)
    (h : entries.addDotted key value path = .ok altered) : altered.Distinct := by
  induction path generalizing entries altered with
  | nil => exact distinct_add hentries hvalue h
  | cons name path ih =>
      refine distinct_alter hentries ?_ ?_ h
      · intro other hother
        obtain ⟨inner, hinner, rfl⟩ := Journaled.map_eq_ok_iff.mp hother
        exact Value.distinct_table_iff.mpr (ih distinct_nil hinner)
      · intro old other hold hother
        split at hother
        · next heq => exact nomatch heq
        · next heq =>
            obtain rfl := Option.some.inj heq
            obtain ⟨inner, hinner, rfl⟩ := Journaled.map_eq_ok_iff.mp hother
            exact Value.distinct_table_iff.mpr (ih (Value.distinct_table_iff.mp hold) hinner)
        · next heq =>
            obtain rfl := Option.some.inj heq
            split at hother
            · exact nomatch hother
            · obtain ⟨inner, hinner, rfl⟩ := Journaled.map_eq_ok_iff.mp hother
              exact Value.distinct_table_iff.mpr (ih (Value.distinct_table_iff.mp hold) hinner)
        · next heq =>
            obtain rfl := Option.some.inj heq
            split at hother
            · exact nomatch hother
            · obtain ⟨last, hlast, rfl⟩ := Journaled.map_eq_ok_iff.mp hother
              exact distinct_tables_last hold (ih (distinct_getLastD hold) hlast)
        · exact nomatch hother
        · exact nomatch hother

/-- Whatever keeps keys distinct does so at the end of a path. -/
theorem distinct_descend {f : Entries → Except Cause Entries} {path : List String}
    {entries altered : Entries} (hentries : entries.Distinct)
    (hf : ∀ inner found : Entries, inner.Distinct → f inner = .ok found → found.Distinct)
    (h : entries.descend f path = .ok altered) : altered.Distinct := by
  induction path generalizing entries altered with
  | nil => exact hf entries altered hentries h
  | cons name path ih =>
      refine distinct_alter hentries ?_ ?_ h
      · intro other hother
        obtain ⟨inner, hinner, rfl⟩ := Journaled.map_eq_ok_iff.mp hother
        exact Value.distinct_table_iff.mpr (ih distinct_nil hinner)
      · intro old other hold hother
        split at hother
        · next heq => exact nomatch heq
        · exact nomatch hother
        · next heq =>
            obtain rfl := Option.some.inj heq
            obtain ⟨inner, hinner, rfl⟩ := Journaled.map_eq_ok_iff.mp hother
            exact Value.distinct_table_iff.mpr (ih (Value.distinct_table_iff.mp hold) hinner)
        · next heq =>
            obtain rfl := Option.some.inj heq
            obtain ⟨last, hlast, rfl⟩ := Journaled.map_eq_ok_iff.mp hother
            exact distinct_tables_last hold (ih (distinct_getLastD hold) hlast)
        · exact nomatch hother

theorem distinct_define {path : List String} {key : String} {entries altered : Entries}
    (hentries : entries.Distinct) (h : entries.define path key = .ok altered) :
    altered.Distinct := by
  refine distinct_descend hentries ?_ h
  intro inner found hinner hfound
  refine distinct_alter hinner ?_ ?_ hfound
  · intro value hvalue
    obtain rfl := Except.ok.inj hvalue
    exact Value.distinct_table_iff.mpr distinct_nil
  · intro old value hold hvalue
    split at hvalue
    · next heq => exact nomatch heq
    · next heq =>
        obtain rfl := Option.some.inj heq
        obtain rfl := Except.ok.inj hvalue
        exact Value.distinct_table_iff.mpr (Value.distinct_table_iff.mp hold)
    · exact nomatch hvalue

theorem distinct_append {path : List String} {key : String} {entries element altered : Entries}
    (hentries : entries.Distinct) (helement : element.Distinct)
    (h : entries.append path key element = .ok altered) : altered.Distinct := by
  refine distinct_descend hentries ?_ h
  intro inner found hinner hfound
  refine distinct_alter hinner ?_ ?_ hfound
  · intro value hvalue
    obtain rfl := Except.ok.inj hvalue
    exact Value.distinct_tables_iff.mpr (List.forall_mem_singleton.mpr helement)
  · intro old value hold hvalue
    split at hvalue
    · next heq => exact nomatch heq
    · next heq =>
        obtain rfl := Option.some.inj heq
        obtain rfl := Except.ok.inj hvalue
        refine Value.distinct_tables_iff.mpr ?_
        exact List.forall_mem_append.mpr
          ⟨Value.distinct_tables_iff.mp hold, List.forall_mem_singleton.mpr helement⟩
    · exact nomatch hvalue

end Entries

-- ── The reader ──────────────────────────────────────────────────────────────

/-- A word stands for a single value. -/
theorem isContainer_of_wordValue {mark : Mark} {word : List Char} {value : Value}
    (h : wordValue mark word = .ok value) : value.isContainer = false := by
  unfold wordValue at h
  split at h
  · obtain rfl := Except.ok.inj h
    rfl
  · obtain rfl := Except.ok.inj h
    rfl
  · split at h
    · obtain rfl := Except.ok.inj h
      rfl
    · obtain rfl := Except.ok.inj h
      rfl
    · obtain rfl := Except.ok.inj h
      rfl
    · obtain rfl := Except.ok.inj h
      split <;> rfl
    · split at h
      · obtain rfl := Except.ok.inj h
        rfl
      · exact nomatch h

/-- A scalar that was read is no container. -/
theorem isContainer_of_value {token : Token} {value : Value} (h : token.value = .ok value) :
    value.isContainer = false := by
  unfold Token.value at h
  split at h
  · obtain ⟨text, -, rfl⟩ := Journaled.map_eq_ok_iff.mp h
    rfl
  · exact isContainer_of_wordValue (Journaled.mapError_eq_ok_iff.mp h)

mutual

/-- **A value that is read** has distinct keys in all its tables. -/
theorem distinct_of_read : (written : Written) → ∀ {value : Value},
    written.read = .ok value → value.Distinct
  | .scalar token, value, h => by
      rw [Written.read] at h
      exact .single (isContainer_of_value h)
  | .list items, value, h => by
      rw [Written.read] at h
      obtain ⟨values, hvalues, rfl⟩ := Journaled.map_eq_ok_iff.mp h
      exact .array (distinct_of_readItems items hvalues)
  | .inline entries, value, h => by
      rw [Written.read] at h
      obtain ⟨found, hfound, rfl⟩ := Journaled.map_eq_ok_iff.mp h
      exact Value.distinct_table_iff.mpr
        (distinct_of_readEntries entries Entries.distinct_nil hfound)

/-- Items that were read repeat no key. -/
theorem distinct_of_readItems : (items : List Written) → ∀ {values : List Value},
    readItems items = .ok values → ∀ value ∈ values, value.Distinct
  | [], values, h => by
      rw [readItems] at h
      obtain rfl := Except.ok.inj h
      exact List.forall_mem_nil _
  | item :: items, values, h => by
      rw [readItems] at h
      obtain ⟨first, hfirst, h⟩ := Journaled.bind_eq_ok_iff.mp h
      obtain ⟨others, hothers, h⟩ := Journaled.bind_eq_ok_iff.mp h
      obtain rfl := Except.ok.inj h
      exact List.forall_mem_cons.mpr
        ⟨distinct_of_read item hfirst, distinct_of_readItems items hothers⟩

/-- Entries that were read repeat no key. -/
theorem distinct_of_readEntries : (entries : List (List Token × Written)) →
    ∀ {before found : Entries}, before.Distinct → readEntries before entries = .ok found →
      found.Distinct
  | [], before, found, hbefore, h => by
      rw [readEntries] at h
      obtain rfl := Except.ok.inj h
      exact hbefore
  | (names, written) :: entries, before, found, hbefore, h => by
      rw [readEntries] at h
      obtain ⟨key, -, h⟩ := Journaled.bind_eq_ok_iff.mp h
      obtain ⟨value, hvalue, h⟩ := Journaled.bind_eq_ok_iff.mp h
      obtain ⟨extended, hextended, h⟩ := Journaled.bind_eq_ok_iff.mp h
      have hdistinct := Entries.distinct_addDotted hbefore (distinct_of_read written hvalue)
        (Journaled.mapError_eq_ok_iff.mp hextended)
      exact distinct_of_readEntries entries hdistinct h

end

/-- The entries that a section is going to add to a list. -/
def Target.entries : Target → Entries
  | .table _ => []
  | .element _ entries => entries

/-- What has been read so far has distinct keys. -/
structure Progress.Distinct (p : Progress) : Prop where
  root : p.root.Distinct
  target : p.target.entries.Distinct

namespace Progress

theorem distinct_endSection {p ended : Progress} (hp : p.Distinct)
    (h : p.endSection = .ok ended) : ended.Distinct := by
  obtain ⟨root, target⟩ := p
  cases target with
  | table path =>
      obtain rfl := Except.ok.inj h
      exact hp
  | element list entries =>
      obtain ⟨extended, hextended, rfl⟩ := Journaled.map_eq_ok_iff.mp h
      exact ⟨Entries.distinct_append hp.root hp.target (Journaled.mapError_eq_ok_iff.mp hextended),
        Entries.distinct_nil⟩

theorem distinct_beginTable {p begun : Progress} {key : Key} (hp : p.Distinct)
    (h : p.beginTable key = .ok begun) : begun.Distinct := by
  obtain ⟨root, hroot, rfl⟩ := Journaled.map_eq_ok_iff.mp h
  exact ⟨Entries.distinct_define hp.root (Journaled.mapError_eq_ok_iff.mp hroot),
    Entries.distinct_nil⟩

theorem distinct_enter {p entered : Progress} {key : Key} {value : Value} (hp : p.Distinct)
    (hvalue : value.Distinct) (h : p.enter key value = .ok entered) : entered.Distinct := by
  obtain ⟨root, target⟩ := p
  cases target with
  | table path =>
      obtain ⟨extended, hextended, rfl⟩ := Journaled.map_eq_ok_iff.mp h
      refine ⟨?_, Entries.distinct_nil⟩
      refine Entries.distinct_descend hp.root ?_ (Journaled.mapError_eq_ok_iff.mp hextended)
      exact fun inner found hinner => Entries.distinct_addDotted hinner hvalue
  | element list entries =>
      obtain ⟨extended, hextended, rfl⟩ := Journaled.map_eq_ok_iff.mp h
      exact ⟨hp.root,
        Entries.distinct_addDotted hp.target hvalue (Journaled.mapError_eq_ok_iff.mp hextended)⟩

/-- **One line** keeps keys distinct. -/
theorem distinct_read {p after : Progress} {line : WrittenLine} (hp : p.Distinct)
    (h : p.read line = .ok after) : after.Distinct := by
  cases line with
  | header names =>
      obtain ⟨ended, hended, h⟩ := Journaled.bind_eq_ok_iff.mp h
      obtain ⟨key, -, h⟩ := Journaled.bind_eq_ok_iff.mp h
      exact distinct_beginTable (distinct_endSection hp hended) h
  | listHeader names =>
      obtain ⟨ended, hended, h⟩ := Journaled.bind_eq_ok_iff.mp h
      obtain ⟨key, -, h⟩ := Journaled.bind_eq_ok_iff.mp h
      obtain rfl := Except.ok.inj h
      exact ⟨(distinct_endSection hp hended).root, Entries.distinct_nil⟩
  | entry names written =>
      obtain ⟨key, -, h⟩ := Journaled.bind_eq_ok_iff.mp h
      obtain ⟨value, hvalue, h⟩ := Journaled.bind_eq_ok_iff.mp h
      exact distinct_enter hp (distinct_of_read written hvalue) h

theorem distinct_foldlM {lines : List WrittenLine} {p final : Progress} (hp : p.Distinct)
    (h : lines.foldlM Progress.read p = .ok final) : final.Distinct := by
  induction lines generalizing p with
  | nil =>
      obtain rfl := Except.ok.inj h
      exact hp
  | cons line lines ih =>
      rw [List.foldlM_cons] at h
      obtain ⟨after, hafter, h⟩ := Journaled.bind_eq_ok_iff.mp h
      exact ih (distinct_read hp hafter) h

end Progress

/-- **No key is defined twice** in a table of a text that can be read. -/
theorem distinct_read {text : String} {entries : Entries} (h : read text = .ok entries) :
    entries.Distinct := by
  obtain ⟨lines, -, h⟩ := Journaled.bind_eq_ok_iff.mp h
  obtain ⟨final, hfinal, h⟩ := Journaled.bind_eq_ok_iff.mp h
  obtain ⟨ended, hended, h⟩ := Journaled.bind_eq_ok_iff.mp h
  obtain rfl := Except.ok.inj h
  have hstart : Progress.Distinct {} := ⟨Entries.distinct_nil, Entries.distinct_nil⟩
  exact (Progress.distinct_endSection (Progress.distinct_foldlM hstart hfinal) hended).root

end Stencil.Toml
