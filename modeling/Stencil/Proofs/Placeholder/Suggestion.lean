import Mathlib.Data.Nat.Basic
import Stencil.Placeholder.Suggestion
import Stencil.Proofs.Document.Members
import Stencil.Proofs.Sorting
import Stencil.Proofs.Text.EditDistance

/-!
# Suggestions — the best three keywords

Of two keywords the nearer one to an unknown keyword is the better suggestion, and of equally near
ones the one that is defined first (`Nearer`). No two keywords are better than each other, so at
most one list can hold the best three in their order (`BestThree.unique`). Sorting by distances is
stable and the keywords come in the order of their definition, so all close keywords stand in this
order (`pairwise_closeKeywords`); the first three of them are therefore better than all others, and
they are what is suggested (`suggestions_bestThree`).
-/

namespace Stencil.Placeholder

-- ── Better suggestions ──────────────────────────────────────────────────────

/-- One keyword is nearer than another, or as near and defined earlier. -/
def Nearer (far : String → Nat) (defined : List String) (keyword other : String) : Prop :=
  far keyword < far other ∨
    far keyword = far other ∧ defined.idxOf keyword < defined.idxOf other

/-- Of two keywords only one is nearer. -/
theorem Nearer.asymm {far : String → Nat} {defined : List String} {keyword other : String}
    (h : Nearer far defined keyword other) : ¬ Nearer far defined other keyword := by
  intro hback
  rcases h with hless | ⟨hsame, hearlier⟩
  · rcases hback with hless' | ⟨hsame', -⟩
    · omega
    · omega
  · rcases hback with hless' | ⟨-, hearlier'⟩
    · omega
    · omega

instance (far : String → Nat) (defined : List String) (keyword other : String) :
    Decidable (Nearer far defined keyword other) :=
  inferInstanceAs (Decidable (_ ∨ _))

/-- **The best three** of the defined keywords whose distance is within a limit, fewer only if
    there are no more: whatever else is within the limit, all three are better. -/
structure BestThree (far : String → Nat) (limit : Nat) (defined chosen : List String) :
    Prop where
  distinct : chosen.Nodup
  atMostThree : chosen.length ≤ 3
  close : ∀ keyword ∈ chosen, keyword ∈ defined ∧ far keyword ≤ limit
  ranked : chosen.Pairwise (Nearer far defined)
  complete : ∀ keyword ∈ defined, far keyword ≤ limit → keyword ∉ chosen →
    chosen.length = 3 ∧ ∀ better ∈ chosen, Nearer far defined better keyword

namespace BestThree

variable {far : String → Nat} {limit : Nat} {defined chosen others : List String}

/-- Two choices of the best three agree on every keyword. -/
theorem mem_of_mem (h : BestThree far limit defined chosen)
    (hothers : BestThree far limit defined others) {keyword : String} (hmem : keyword ∈ chosen) :
    keyword ∈ others := by
  by_cases hnot : keyword ∈ others
  · exact hnot
  · obtain ⟨hdefined, hclose⟩ := h.close keyword hmem
    obtain ⟨hthree, hbetter⟩ := hothers.complete keyword hdefined hclose hnot
    -- the three others, all better than this one, would have to be chosen beside it
    have hsubset : keyword :: others ⊆ chosen := by
      intro other hother
      rcases List.mem_cons.mp hother with rfl | hother
      · exact hmem
      · by_cases hchosen : other ∈ chosen
        · exact hchosen
        · obtain ⟨hdefined', hclose'⟩ := hothers.close other hother
          have hworse := (h.complete other hdefined' hclose' hchosen).2 keyword hmem
          exact absurd (hbetter other hother) hworse.asymm
    have hfour : (keyword :: others).length ≤ chosen.length :=
      (List.nodup_cons.mpr ⟨hnot, hothers.distinct⟩).length_le_of_subset hsubset
    have hfew := h.atMostThree
    rw [List.length_cons, hthree] at hfour
    omega

/-- **The best three are determined**, their order included. -/
theorem unique (h : BestThree far limit defined chosen)
    (hothers : BestThree far limit defined others) : chosen = others := by
  have hperm : chosen.Perm others := by
    rw [List.perm_ext_iff_of_nodup h.distinct hothers.distinct]
    exact fun keyword => ⟨h.mem_of_mem hothers, hothers.mem_of_mem h⟩
  refine hperm.eq_of_pairwise ?_ h.ranked hothers.ranked
  intro keyword other _ _ hless hback
  exact absurd hback hless.asymm

end BestThree

-- ── Close keywords in their order ───────────────────────────────────────────

/-- All mapped keywords close to an unknown one, the best suggestions first. -/
def closeKeywords (unknown : String) (mappings : Mappings) : List String :=
  ((byDistance unknown mappings).filter fun candidate =>
    candidate.2 ≤ suggestionLimit unknown).map Prod.fst

/-- The suggestions are the first three of the close keywords. -/
theorem suggestions_eq_take (unknown : String) (mappings : Mappings) :
    suggestions unknown mappings = (closeKeywords unknown mappings).take 3 :=
  List.map_take

/-- Every defined keyword is measured, and nothing else. -/
theorem mem_byDistance_iff {unknown : String} {mappings : Mappings} {keyword : String}
    {far : Nat} :
    (keyword, far) ∈ byDistance unknown mappings ↔
      keyword ∈ mappings.names ∧ far = distance unknown keyword := by
  rw [byDistance, (sortStable_perm _ _).mem_iff, List.mem_map]
  constructor
  · rintro ⟨found, hmem, heq⟩
    obtain ⟨rfl, rfl⟩ := Prod.mk.inj heq
    exact ⟨hmem, rfl⟩
  · rintro ⟨hmem, rfl⟩
    exact ⟨keyword, hmem, rfl⟩

/-- A keyword is close if it is defined and within the limit. -/
theorem mem_closeKeywords_iff {unknown : String} {mappings : Mappings} {keyword : String} :
    keyword ∈ closeKeywords unknown mappings ↔
      keyword ∈ mappings.names ∧ distance unknown keyword ≤ suggestionLimit unknown := by
  rw [closeKeywords, List.mem_map]
  constructor
  · rintro ⟨⟨keyword, far⟩, hmem, rfl⟩
    obtain ⟨hmem, hclose⟩ := List.mem_filter.mp hmem
    obtain ⟨hnames, rfl⟩ := mem_byDistance_iff.mp hmem
    exact ⟨hnames, of_decide_eq_true hclose⟩
  · rintro ⟨hnames, hclose⟩
    refine ⟨(keyword, distance unknown keyword), List.mem_filter.mpr ⟨?_, ?_⟩, rfl⟩
    · exact mem_byDistance_iff.mpr ⟨hnames, rfl⟩
    · exact decide_eq_true hclose

/-- **Sorted by distance**, the keywords stand in the order of suggestions. -/
theorem pairwise_byDistance {mappings : Mappings} (h : mappings.names.Nodup) (unknown : String) :
    (byDistance unknown mappings).Pairwise fun candidate other =>
      Nearer (distance unknown) mappings.names candidate.1 other.1 := by
  have hdefined : (mappings.names.map fun keyword => (keyword, distance unknown keyword)).Pairwise
      fun a b => mappings.names.idxOf a.1 < mappings.names.idxOf b.1 := by
    rw [List.pairwise_map]
    exact pairwise_idxOf h
  refine (stable_byKey Prod.snd (fun _ _ => decide_eq_true_iff) hdefined).imp_of_mem ?_
  rintro ⟨keyword, far⟩ ⟨other, far'⟩ hkeyword hother hbefore
  obtain ⟨-, rfl⟩ := mem_byDistance_iff.mp hkeyword
  obtain ⟨-, rfl⟩ := mem_byDistance_iff.mp hother
  exact hbefore

/-- Close keywords come in the order of their distance, and equally close ones in that of their
    definition. -/
theorem pairwise_closeKeywords {mappings : Mappings} (h : mappings.names.Nodup)
    (unknown : String) :
    (closeKeywords unknown mappings).Pairwise (Nearer (distance unknown) mappings.names) := by
  rw [closeKeywords, List.pairwise_map]
  exact (pairwise_byDistance h unknown).filter _

-- ── The first three ─────────────────────────────────────────────────────────

/-- Of a list in the order of suggestions, the first three are better than the others. -/
theorem bestThree_take {far : String → Nat} {limit : Nat} {defined ranked : List String}
    (hranked : ranked.Pairwise (Nearer far defined))
    (hmem : ∀ keyword, keyword ∈ ranked ↔ keyword ∈ defined ∧ far keyword ≤ limit) :
    BestThree far limit defined (ranked.take 3) := by
  have hnodup : ranked.Nodup := by
    refine hranked.imp ?_
    rintro keyword _ h rfl
    exact h.asymm h
  have hsplit : (ranked.take 3 ++ ranked.drop 3).Pairwise (Nearer far defined) := by
    rw [List.take_append_drop]
    exact hranked
  refine ⟨hnodup.sublist (List.take_sublist 3 ranked), List.length_take_le 3 ranked, ?_,
    hranked.sublist (List.take_sublist 3 ranked), ?_⟩
  · intro keyword hkeyword
    exact (hmem keyword).mp (List.mem_of_mem_take hkeyword)
  · intro keyword hdefined hclose hnot
    have hlater : keyword ∈ ranked.drop 3 := by
      have hall : keyword ∈ ranked.take 3 ++ ranked.drop 3 := by
        rw [List.take_append_drop]
        exact (hmem keyword).mpr ⟨hdefined, hclose⟩
      rcases List.mem_append.mp hall with hfirst | hlater
      · exact absurd hfirst hnot
      · exact hlater
    constructor
    · have hmore : 0 < (ranked.drop 3).length := List.length_pos_of_mem hlater
      rw [List.length_drop] at hmore
      rw [List.length_take]
      omega
    · intro better hbetter
      exact (List.pairwise_append.mp hsplit).2.2 better hbetter keyword hlater

/-- **THE BEST THREE ARE SUGGESTED**: with the least number of edits as distance, and half the
    bytes of the unknown keyword but at least one as limit, the suggestions are the best three of
    the mapped keywords, and no other list is. -/
theorem suggestions_bestThree {mappings : Mappings} (h : mappings.names.Nodup)
    (unknown : String) :
    (∀ keyword, IsLeast {n | Text.Edits n unknown.toList keyword.toList}
        (distance unknown keyword)) ∧
      BestThree (distance unknown) (max 1 (unknown.utf8ByteSize / 2)) mappings.names
        (suggestions unknown mappings) ∧
      ∀ chosen, BestThree (distance unknown) (max 1 (unknown.utf8ByteSize / 2)) mappings.names
        chosen → chosen = suggestions unknown mappings := by
  have hlimit : suggestionLimit unknown = max 1 (unknown.utf8ByteSize / 2) := by
    rw [suggestionLimit]
    omega
  have hbest : BestThree (distance unknown) (max 1 (unknown.utf8ByteSize / 2)) mappings.names
      (suggestions unknown mappings) := by
    rw [← hlimit, suggestions_eq_take]
    exact bestThree_take (pairwise_closeKeywords h unknown) fun _ => mem_closeKeywords_iff
  refine ⟨fun keyword => ?_, hbest, fun chosen hchosen => hchosen.unique hbest⟩
  exact Text.isLeast_editDistance unknown.toList keyword.toList

/-- Keywords at several distances from `port`, more of them close than can be suggested. -/
def portMappings : Mappings :=
  [("parts", .null), ("post", .null), ("domain", .null), ("porté", .null), ("", .null),
    ("pört", .null), ("part", .null)]

/-- Of four keywords at the least distance, the one that was defined last is left out. -/
theorem suggestions_bestThree_portMappings :
    portMappings.names.Nodup ∧
      BestThree (distance "port") (max 1 ("port".utf8ByteSize / 2)) portMappings.names
        ["post", "porté", "pört"] ∧
      ["post", "porté", "pört"] = suggestions "port" portMappings ∧
      Nearer (distance "port") portMappings.names "pört" "part" := by
  have hnodup : portMappings.names.Nodup := by decide
  have hthree : BestThree (distance "port") (max 1 ("port".utf8ByteSize / 2)) portMappings.names
      ["post", "porté", "pört"] := by
    constructor <;> decide +kernel
  obtain ⟨-, hbest, honly⟩ := suggestions_bestThree hnodup "port"
  have hchosen := honly _ hthree
  rw [← hchosen] at hbest
  have hpart := hbest.complete "part" (by decide) (by decide +kernel) (by decide)
  exact ⟨hnodup, hthree, hchosen, hpart.2 "pört" (by decide)⟩

end Stencil.Placeholder
