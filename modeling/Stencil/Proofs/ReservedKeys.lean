import Mathlib.Data.List.Perm.Basic
import Stencil.ReservedKeys
import Stencil.Proofs.Settings.RoundTrip

/-!
# Reserved keys — what a fault says about them

Which keys of settings are at fault depends on the settings and on what is reserved: the former
give their order, the latter is only asked for its members. As settings repeat no key, there is
just one list of them (`AtFault.unique`). A fault shows this list as an indented document, which
reads back, whatever the keys are made of (`read_indented_strings`). So the list can be had from
the message again (`rejectReservedKeys_readBack`).
-/

namespace Stencil

/-- The keys at the top of a document, in its order; only objects have any. -/
def Document.keys : Document → List String
  | .object members => Members.names members
  | _ => []

/-- **The keys at fault**: those that are reserved, each once, and in their order. -/
structure AtFault (reserved keys found : List String) : Prop where
  once : found.Nodup
  ordered : found.Sublist keys
  exact : ∀ key, key ∈ found ↔ key ∈ keys ∧ key ∈ reserved

namespace AtFault

variable {reserved others keys found : List String}

/-- Only one list has the keys at fault. -/
theorem unique {listed : List String} (hkeys : keys.Nodup) (h : AtFault reserved keys found)
    (hlisted : AtFault reserved keys listed) : listed = found := by
  refine (hkeys.perm_iff_eq_of_sublist hlisted.ordered h.ordered).mp ?_
  rw [List.perm_ext_iff_of_nodup hlisted.once h.once]
  intro key
  exact (hlisted.exact key).trans (h.exact key).symm

/-- The keys that are reserved are the ones at fault. -/
theorem filter (hkeys : keys.Nodup) (reserved : List String) :
    AtFault reserved keys (keys.filter reserved.contains) where
  once := hkeys.filter _
  ordered := List.filter_sublist
  exact := fun key => by rw [List.mem_filter, List.contains_iff_mem]

end AtFault

-- ── Keys among those that are reserved ──────────────────────────────────────

/-- Looking for reserved keys keeps the order of the document. -/
theorem Document.keysAmong_eq_filter (reserved : List String) (document : Document) :
    document.keysAmong reserved = document.keys.filter reserved.contains := by
  cases document <;> rfl

/-- Only objects have keys. -/
theorem Document.exists_object_of_mem_keys {document : Document} {key : String}
    (h : key ∈ document.keys) :
    ∃ members : Members, document = .object members ∧ key ∈ members.names := by
  cases document with
  | object members => exact ⟨members, rfl, h⟩
  | _ => exact nomatch h

/-- Of what is reserved, only the members matter. -/
theorem Document.keysAmong_congr {reserved others : List String}
    (h : ∀ key, key ∈ others ↔ key ∈ reserved) (document : Document) :
    document.keysAmong others = document.keysAmong reserved := by
  rw [keysAmong_eq_filter, keysAmong_eq_filter]
  refine List.filter_congr fun key _ => ?_
  rw [Bool.eq_iff_iff, List.contains_iff_mem, List.contains_iff_mem]
  exact h key

/-- **Settings are rejected** exactly if some of their keys are reserved, with the message that
    lists these keys. -/
theorem rejectReservedKeys_error_iff {kind : String} {reserved : List String}
    {settings : Document} {fault : Fault} :
    (rejectReservedKeys kind reserved settings).result = .error fault
      ↔ settings.keysAmong reserved ≠ [] ∧
        fault = .rule (reservedKeysMessage kind (settings.keysAmong reserved)) := by
  unfold rejectReservedKeys
  cases settings.keysAmong reserved with
  | nil =>
      constructor
      · intro h
        exact nomatch h
      · rintro ⟨h, -⟩
        exact absurd rfl h
  | cons key keys =>
      constructor
      · intro h
        exact ⟨List.cons_ne_nil key keys, (Except.error.inj h).symm⟩
      · rintro ⟨-, rfl⟩
        rfl

-- ── Lists of keys as documents ──────────────────────────────────────────────

/-- A list of strings is one level deep. -/
theorem Document.nesting_strings (items : List String) : (strings items).nesting = 1 := by
  have hflat : nestingOfItems (items.map .string) = 0 := by
    induction items with
    | nil => rfl
    | cons item items ih =>
        rw [List.map_cons, nestingOfItems, ih]
        rfl
  rw [strings, nesting, hflat]

/-- Indented strings are read back, whatever characters they hold. -/
theorem Document.read_indented_strings (items : List String) :
    read (strings items).indented = .ok (strings items) := by
  refine read_text .indented (exact_strings items) ?_
  rw [nesting_strings]
  decide

/-- **REPORTED KEYS READ BACK**: settings are rejected exactly if they are an object with a reserved
    key. The message then holds a list that reads as the keys at fault, each once and in the order
    of the settings, and only one list does. In which order and how often keys are reserved makes
    no difference. -/
theorem rejectReservedKeys_readBack (kind : String) (reserved : List String) {settings : Document}
    (h : settings.keys.Nodup) :
    ((∃ fault, (rejectReservedKeys kind reserved settings).result = .error fault)
        ↔ ∃ members : Members, settings = .object members ∧
          ∃ key ∈ members.names, key ∈ reserved) ∧
      (∀ fault, (rejectReservedKeys kind reserved settings).result = .error fault →
        ∃ text found, fault = .rule ("The following keys " ++ text ++ " were found in " ++ kind ++
            ". They should be set separately.") ∧
          Document.read text = .ok (.array (found.map .string)) ∧
          AtFault reserved settings.keys found ∧
          ∀ listed, AtFault reserved settings.keys listed → listed = found) ∧
      ∀ others, (∀ key, key ∈ others ↔ key ∈ reserved) →
        rejectReservedKeys kind others settings = rejectReservedKeys kind reserved settings := by
  have hfound : AtFault reserved settings.keys (settings.keysAmong reserved) := by
    rw [Document.keysAmong_eq_filter]
    exact .filter h reserved
  refine ⟨⟨?_, ?_⟩, ?_, ?_⟩
  · rintro ⟨fault, hfault⟩
    obtain ⟨hne, -⟩ := rejectReservedKeys_error_iff.mp hfault
    obtain ⟨key, hmem⟩ := List.exists_mem_of_ne_nil _ hne
    obtain ⟨hkey, hreserved⟩ := (hfound.exact key).mp hmem
    obtain ⟨members, heq, hname⟩ := Document.exists_object_of_mem_keys hkey
    exact ⟨members, heq, key, hname, hreserved⟩
  · rintro ⟨members, rfl, key, hname, hreserved⟩
    have hmem := (hfound.exact key).mpr ⟨hname, hreserved⟩
    exact ⟨_, rejectReservedKeys_error_iff.mpr ⟨List.ne_nil_of_mem hmem, rfl⟩⟩
  · intro fault hfault
    obtain ⟨-, rfl⟩ := rejectReservedKeys_error_iff.mp hfault
    exact ⟨_, _, rfl, Document.read_indented_strings _, hfound, fun _ => hfound.unique h⟩
  · intro others hsame
    rw [rejectReservedKeys, rejectReservedKeys, Document.keysAmong_congr hsame]

/-- Settings with keys of quotes, control characters and line breaks. -/
def awkwardSettings : Document :=
  .object [("b\"\\", .null), ("plain", .object [("login", .null)]), ("\x01\n\x7d", .bool true),
    ("login", .array [])]

/-- Reserved keys in another order, one of them twice. -/
def reservedPages : List String :=
  ["login", "\x01\n\x7d", "other", "login", "b\"\\"]

/-- Keys with quotes, a backslash and a line end, listed in the message in the order of the document
    and read back from it. -/
theorem rejectReservedKeys_readBack_awkwardSettings :
    awkwardSettings.keys.Nodup ∧
      (∃ text, (rejectReservedKeys "tenant settings" reservedPages awkwardSettings).result
          = .error (.rule ("The following keys " ++ text ++ " were found in " ++
              "tenant settings" ++ ". They should be set separately.")) ∧
        Document.read text
          = .ok (.array [.string "b\"\\", .string "\x01\n\x7d", .string "login"])) ∧
      rejectReservedKeys "tenant settings" ["b\"\\", "\x01\n\x7d", "login", "other"]
          awkwardSettings
        = rejectReservedKeys "tenant settings" reservedPages awkwardSettings := by
  have hkeys : awkwardSettings.keys.Nodup := by decide
  have hlisted : AtFault reservedPages awkwardSettings.keys ["b\"\\", "\x01\n\x7d", "login"] :=
    .filter hkeys reservedPages
  obtain ⟨hrejected, hreport, hsame⟩ :=
    rejectReservedKeys_readBack "tenant settings" reservedPages hkeys
  obtain ⟨fault, hfault⟩ := hrejected.mpr ⟨_, rfl, "login", by decide, by decide⟩
  obtain ⟨text, found, rfl, hread, -, honly⟩ := hreport fault hfault
  obtain rfl := honly _ hlisted
  refine ⟨hkeys, ⟨text, hfault, hread⟩, hsame _ ?_⟩
  intro key
  simp only [reservedPages, List.mem_cons, List.not_mem_nil, or_false]
  tauto

end Stencil
