import Accumulator.Proofs.Ranking
import Accumulator.Settings.Document
import Mathlib.Data.Set.List

/-!
Names that are no settings. What stands in place of the settings is looked at member by member
(`Settings.Checked`): members without an order break the look off, and so do unknown ones of
different sorts; otherwise the unknown ones are the subject of the error. In a table the members are
names, so that every unknown one is refused and shown, once each and in order
(`Settings.checkNames_of_unknown`).
-/

set_option autoImplicit false
set_option relaxedAutoImplicit false

namespace Accumulator

namespace Settings

open Toml (Rank)

variable {value member : Toml.Value} {found : List Toml.Value}

/-! ### Unknown members -/

theorem isName_iff : isName value = true ↔ ∃ name ∈ names, value = .string name := by
  unfold isName
  split
  · simp
  · rename_i hno
    exact iff_of_false (by simp) fun ⟨name, _, heq⟩ ↦ hno name heq

theorem isName_eq_false_iff : isName value = false ↔ ∀ name ∈ names, value ≠ .string name := by
  rw [← Bool.not_eq_true, isName_iff]
  simp

/-- A member with what it is compared by. -/
def rankOf (member : Toml.Value) : Except Error (Rank × Toml.Value) :=
  match member.rank? with
  | some rank => .ok (rank, member)
  | none => .error .unsuitable

theorem rankOf_of_ranked {rank : Rank} (h : member.rank? = some rank) :
    rankOf member = .ok (rank, member) := by
  simp only [rankOf, h]

theorem rankOf_of_unordered (h : member.rank? = none) : rankOf member = .error .unsuitable := by
  simp only [rankOf, h]

/-- Members with what they are compared by. -/
def ranked (found : List Toml.Value) : List (Rank × Toml.Value) :=
  found.filterMap fun member ↦ member.rank?.map (·, member)

/-- The members that are no names of settings, once each. -/
def strangers (found : List Toml.Value) : List (Rank × Toml.Value) :=
  Toml.distinct [] ((ranked found).filter fun (_, member) ↦ !isName member)

/-- The error about unknown members. -/
def strangersError (unknown : List Toml.Value) : Error :=
  match Toml.Value.text (.array unknown) with
  | .ok text => .unknown text
  | .error cause => .ofUnshown cause

theorem mem_ranked_iff {rank : Rank} :
    (rank, member) ∈ ranked found ↔ member ∈ found ∧ member.rank? = some rank := by
  simp only [ranked, List.mem_filterMap, Option.map_eq_some_iff, Prod.mk.injEq]
  constructor
  · rintro ⟨_, hmem, rank, hrank, rfl, rfl⟩
    exact ⟨hmem, hrank⟩
  · rintro ⟨hmem, hrank⟩
    exact ⟨member, hmem, rank, hrank, rfl, rfl⟩

theorem mem_strangers {entry : Rank × Toml.Value} (h : entry ∈ strangers found) :
    entry.2 ∈ found ∧ entry.2.rank? = some entry.1 ∧ isName entry.2 = false := by
  rcases Toml.mem_of_mem_distinct h with hnone | hmem
  · exact absurd hnone List.not_mem_nil
  · obtain ⟨hranked, hname⟩ := List.mem_filter.mp hmem
    obtain ⟨hfound, hrank⟩ := mem_ranked_iff.mp hranked
    exact ⟨hfound, hrank, by rwa [Bool.not_eq_true'] at hname⟩

/-- An unknown member is among those that the error is about, or something that equals it is. -/
theorem exists_mem_strangers {rank : Rank} (hmem : member ∈ found)
    (hrank : member.rank? = some rank) (hname : isName member = false) :
    ∃ kept ∈ strangers found, kept = (rank, member) ∨ kept.1.same rank = true :=
  Toml.exists_mem_distinct
    (List.mem_filter.mpr ⟨mem_ranked_iff.mpr ⟨hmem, hrank⟩, by rwa [Bool.not_eq_true']⟩)

/-- How the look at the members ends. -/
inductive Checked (found : List Toml.Value) : Except Error Unit → Prop
  | unordered {member : Toml.Value} (hmem : member ∈ found) (hrank : member.rank? = none) :
      Checked found (.error .unsuitable)
  | unlike {a b : Toml.Value} {rank other : Rank} (ha : a ∈ found) (hb : b ∈ found)
      (hnamea : isName a = false) (hnameb : isName b = false) (hranka : a.rank? = some rank)
      (hrankb : b.rank? = some other) (hsort : rank.sort ≠ other.sort) :
      Checked found (.error .unsuitable)
  | known (h : ∀ member ∈ found, isName member = true) : Checked found (.ok ())
  | unknown {stranger : Toml.Value} (hmem : stranger ∈ found) (hstranger : isName stranger = false)
      (hranked : ∀ member ∈ found, ∃ rank, member.rank? = some rank)
      (halike : ∀ a ∈ found, ∀ b ∈ found, isName a = false → isName b = false →
        ∀ rank other, a.rank? = some rank → b.rank? = some other → rank.sort = other.sort) :
      Checked found (.error (strangersError (Toml.inOrder (strangers found))))

theorem mapM_rankOf (hranked : ∀ member ∈ found, ∃ rank, member.rank? = some rank) :
    found.mapM rankOf = .ok (ranked found) := by
  induction found with
  | nil => rfl
  | cons first rest ih =>
    obtain ⟨⟨rank, hrank⟩, hrest⟩ := List.forall_mem_cons.mp hranked
    have hfirst : ranked (first :: rest) = (rank, first) :: ranked rest :=
      List.filterMap_cons_some (congrArg (Option.map (·, first)) hrank)
    rw [List.mapM_cons, rankOf_of_ranked hrank, ih hrest, hfirst]
    rfl

theorem mapM_rankOf_of_unordered (hmem : member ∈ found) (hrank : member.rank? = none) :
    found.mapM rankOf = .error .unsuitable := by
  induction found with
  | nil => exact absurd hmem List.not_mem_nil
  | cons first rest ih =>
    rw [List.mapM_cons]
    cases hfirst : first.rank? with
    | none =>
      rw [rankOf_of_unordered hfirst]
      rfl
    | some rank =>
      rcases List.mem_cons.mp hmem with rfl | hrest
      · rw [hrank] at hfirst
        contradiction
      · rw [rankOf_of_ranked hfirst, ih hrest]
        rfl

theorem checkNames_of_unordered (h : members value = .ok found) (hmem : member ∈ found)
    (hrank : member.rank? = none) : checkNames value = .error .unsuitable := by
  unfold checkNames
  rw [h]
  change Except.bind (found.mapM rankOf) _ = _
  rw [mapM_rankOf_of_unordered hmem hrank]
  rfl

theorem checkNames_of_ranked (h : members value = .ok found)
    (hranked : ∀ member ∈ found, ∃ rank, member.rank? = some rank) :
    checkNames value = match Toml.sorted? (strangers found) with
      | none => .error .unsuitable
      | some [] => .ok ()
      | some unknown => .error (strangersError unknown) := by
  unfold checkNames
  rw [h]
  change Except.bind (found.mapM rankOf) _ = _
  rw [mapM_rankOf hranked]
  change (match Toml.sorted? (strangers found) with | none => _ | some [] => _ | some _ => _) = _
  rcases Toml.sorted? (strangers found) with _ | _ | ⟨first, rest⟩
  · rfl
  · rfl
  · simp only [strangersError]
    cases Toml.Value.text (.array (first :: rest)) <;> rfl

theorem exists_stranger_of_sort {rank : Rank} (hmem : member ∈ found)
    (hrank : member.rank? = some rank) (hname : isName member = false) :
    ∃ kept ∈ strangers found, kept.1.sort = rank.sort := by
  obtain ⟨kept, hkept, rfl | hsame⟩ := exists_mem_strangers hmem hrank hname
  · exact ⟨_, hkept, rfl⟩
  · exact ⟨kept, hkept, Rank.sort_eq_of_same hsame⟩

/-- Without an order there are unknown members of two sorts. -/
theorem checked_of_unsorted (h : Toml.sorted? (strangers found) = none) :
    Checked found (.error .unsuitable) := by
  obtain ⟨a, ha, b, hb, hsort⟩ := Toml.sorted?_eq_none_iff.mp h
  obtain ⟨hfounda, hranka, hnamea⟩ := mem_strangers ha
  obtain ⟨hfoundb, hrankb, hnameb⟩ := mem_strangers hb
  exact .unlike hfounda hfoundb hnamea hnameb hranka hrankb hsort

theorem checked_of_nil (hranked : ∀ member ∈ found, ∃ rank, member.rank? = some rank)
    (h : Toml.inOrder (strangers found) = []) : Checked found (.ok ()) := by
  refine .known fun member hmem ↦ ?_
  by_contra hname
  obtain ⟨rank, hrank⟩ := hranked member hmem
  obtain ⟨kept, hkept, -⟩ := exists_stranger_of_sort hmem hrank (Bool.not_eq_true _ ▸ hname)
  have hlisted := Toml.mem_inOrder_iff.mpr ⟨kept, hkept, rfl⟩
  rw [h] at hlisted
  exact absurd hlisted List.not_mem_nil

theorem checked_of_sorted {first : Toml.Value}
    (hranked : ∀ member ∈ found, ∃ rank, member.rank? = some rank)
    (hsorted : Toml.sorted? (strangers found) ≠ none)
    (hfirst : first ∈ Toml.inOrder (strangers found)) :
    Checked found (.error (strangersError (Toml.inOrder (strangers found)))) := by
  obtain ⟨entry, hentry, rfl⟩ := Toml.mem_inOrder_iff.mp hfirst
  obtain ⟨hfound, -, hname⟩ := mem_strangers hentry
  refine .unknown hfound hname hranked ?_
  intro a ha b hb hnamea hnameb rank other hranka hrankb
  obtain ⟨kepta, hkepta, hsorta⟩ := exists_stranger_of_sort ha hranka hnamea
  obtain ⟨keptb, hkeptb, hsortb⟩ := exists_stranger_of_sort hb hrankb hnameb
  have halike : kepta.1.sort = keptb.1.sort := by
    by_contra hne
    exact hsorted (Toml.sorted?_eq_none_iff.mpr ⟨kepta, hkepta, keptb, hkeptb, hne⟩)
  exact hsorta.symm.trans (halike.trans hsortb)

theorem checked_checkNames (h : members value = .ok found) : Checked found (checkNames value) := by
  by_cases hranked : ∀ member ∈ found, ∃ rank, member.rank? = some rank
  · rw [checkNames_of_ranked h hranked]
    cases hsorted : Toml.sorted? (strangers found) with
    | none => exact checked_of_unsorted hsorted
    | some unknown =>
      have horder : unknown = Toml.inOrder (strangers found) := Toml.sorted?_eq_some hsorted
      cases unknown with
      | nil => exact checked_of_nil hranked horder.symm
      | cons first rest =>
        have hfirst : first ∈ Toml.inOrder (strangers found) := horder ▸ List.mem_cons_self
        have hchecked := checked_of_sorted hranked (by simp [hsorted]) hfirst
        rwa [← horder] at hchecked
  · simp only [not_forall, not_exists] at hranked
    obtain ⟨member, hmem, hnone⟩ := hranked
    have hrank : member.rank? = none := Option.eq_none_iff_forall_ne_some.mpr hnone
    rw [checkNames_of_unordered h hmem hrank]
    exact .unordered hmem hrank

/-! ### Verdicts -/

/-- The error is a verdict on what is written. The others break the loading off. -/
def Error.isVerdict : Error → Bool
  | .malformed | .overlong _ | .unknown _ | .registers _ => true
  | .nested | .unsuitable | .noTable => false

theorem isVerdict_strangersError :
    (strangersError (Toml.inOrder (strangers found))).isVerdict = true := by
  have hranked : ∀ value ∈ Toml.inOrder (strangers found), ∃ rank, value.rank? = some rank := by
    intro value hvalue
    obtain ⟨entry, hentry, rfl⟩ := Toml.mem_inOrder_iff.mp hvalue
    exact ⟨entry.1, (mem_strangers hentry).2.1⟩
  have hnested := Toml.Value.elementTexts_ne_nested hranked
  rw [strangersError, Toml.Value.text_array]
  cases helements : Toml.Value.elementTexts 2 (Toml.inOrder (strangers found)) with
  | ok texts => rfl
  | error cause =>
    cases cause with
    | nested => exact absurd helements hnested
    | overlong cause => rfl

/-! ### Unknown names -/

/-- Those of the names that are no settings, once each and in order. -/
structure AreUnknown (given unknown : List String) : Prop where
  ascending : unknown.Pairwise (· < ·)
  mem_iff : ∀ name, name ∈ unknown ↔ name ∈ given ∧ name ∉ names

/-- A name with what it is compared by. -/
def rankedName (name : String) : Rank × Toml.Value := (.text name, .string name)

theorem exists_rankedName {given : List String} {entry : Rank × Toml.Value}
    (h : entry ∈ strangers (given.map .string)) :
    ∃ name, (name ∈ given ∧ name ∉ names) ∧ rankedName name = entry := by
  obtain ⟨hfound, hrank, hname⟩ := mem_strangers h
  obtain ⟨name, hmem, hvalue⟩ := List.mem_map.mp hfound
  refine ⟨name, ⟨hmem, fun hknown ↦ ?_⟩, ?_⟩
  · rw [isName_iff.mpr ⟨name, hknown, hvalue.symm⟩] at hname
    contradiction
  · rw [← hvalue] at hrank
    exact Prod.ext (Option.some.inj hrank) hvalue

theorem rankedName_mem_strangers {given : List String} {name : String} (hmem : name ∈ given)
    (hunknown : name ∉ names) : rankedName name ∈ strangers (given.map .string) := by
  have hname : isName (.string name) = false := by
    rw [isName_eq_false_iff]
    rintro other hother heq
    cases heq
    exact hunknown hother
  obtain ⟨kept, hkept, rfl | hsame⟩ :=
    exists_mem_strangers (List.mem_map_of_mem hmem) (show _ = some (Rank.text name) from rfl) hname
  · exact hkept
  · obtain ⟨other, -, rfl⟩ := exists_rankedName hkept
    rw [rankedName, Rank.same_text_iff] at hsame
    exact hsame ▸ hkept

/-- The order in which names are shown. -/
def precedes (s t : String) : Bool := !(Rank.text t).less (.text s)

theorem precedes_iff (s t : String) : precedes s t = true ↔ s ≤ t := by
  rw [precedes, Bool.not_eq_true', ← Bool.not_eq_true, Rank.less_text_iff, String.not_lt]

theorem inOrder_rankedNames (unsorted : List String) :
    Toml.inOrder (unsorted.map rankedName) = (unsorted.mergeSort precedes).map .string := by
  have hsorted : (unsorted.mergeSort precedes).map rankedName =
      (unsorted.map rankedName).mergeSort fun a b ↦ !b.1.less a.1 :=
    List.map_mergeSort fun s _ t _ ↦ rfl
  rw [Toml.inOrder, ← hsorted, List.map_map]
  rfl

theorem pairwise_lt_mergeSort {unsorted : List String} (h : unsorted.Nodup) :
    (unsorted.mergeSort precedes).Pairwise (· < ·) := by
  have htrans : ∀ s t u, precedes s t = true → precedes t u = true → precedes s u = true := by
    simp only [precedes_iff]
    exact fun s t u ↦ String.le_trans
  have htotal : ∀ s t, (precedes s t || precedes t s) = true := by
    simp only [Bool.or_eq_true, precedes_iff]
    exact String.le_total
  have hsorted := List.pairwise_mergeSort htrans htotal unsorted
  have hdistinct := (List.mergeSort_perm unsorted precedes).nodup_iff.mpr h
  refine hsorted.imp₂ (fun s t hst hne ↦ ?_) hdistinct
  rw [← String.not_le]
  exact fun hts ↦ hne (String.le_antisymm ((precedes_iff s t).mp hst) hts)

section

variable {given unsorted : List String}

theorem mem_unsorted_iff (h : unsorted.map rankedName = strangers (given.map .string))
    (name : String) : name ∈ unsorted ↔ name ∈ given ∧ name ∉ names := by
  constructor
  · intro hname
    have hentry := List.mem_map_of_mem (f := rankedName) hname
    rw [h] at hentry
    obtain ⟨other, hother, heq⟩ := exists_rankedName hentry
    cases heq
    exact hother
  · rintro ⟨hgiven, hunknown⟩
    have hentry := rankedName_mem_strangers hgiven hunknown
    rw [← h] at hentry
    obtain ⟨other, hother, heq⟩ := List.mem_map.mp hentry
    cases heq
    exact hother

theorem nodup_unsorted (h : unsorted.map rankedName = strangers (given.map .string)) :
    unsorted.Nodup := by
  have hpairs : (strangers (given.map .string)).Pairwise _ :=
    Toml.pairwise_distinct List.Pairwise.nil
  rw [← h, List.pairwise_map] at hpairs
  refine hpairs.imp ?_
  rintro s t hsame rfl
  rw [rankedName, (Rank.same_text_iff s s).mpr rfl] at hsame
  contradiction

end

theorem exists_strangers_of_names (given : List String) :
    ∃ unknown, AreUnknown given unknown ∧
      Toml.inOrder (strangers (given.map .string)) = unknown.map .string := by
  have hrange : strangers (given.map .string) ∈ Set.range (List.map rankedName) := by
    rw [Set.range_list_map]
    intro entry hentry
    obtain ⟨name, -, hname⟩ := exists_rankedName hentry
    exact ⟨name, hname⟩
  obtain ⟨unsorted, hunsorted⟩ := hrange
  refine ⟨unsorted.mergeSort precedes, ⟨?ascending, fun name ↦ ?mem⟩, ?order⟩
  case ascending => exact pairwise_lt_mergeSort (nodup_unsorted hunsorted)
  case mem => rw [List.mem_mergeSort, mem_unsorted_iff hunsorted]
  case order => rw [← hunsorted, inOrder_rankedNames]

/-- A name that is no setting is refused, and the error shows all such names. -/
theorem checkNames_of_unknown {given : List String} {name : String}
    (hmembers : members value = .ok (given.map .string)) (hgiven : name ∈ given)
    (hunknown : name ∉ names) :
    ∃ unknown, AreUnknown given unknown ∧ checkNames value =
      .error (.unknown ("[" ++ ", ".intercalate (unknown.map Text.quoted) ++ "]")) := by
  obtain ⟨unknown, hare, horder⟩ := exists_strangers_of_names given
  have htext : Toml.Value.text (.array (unknown.map .string)) =
      .ok ("[" ++ ", ".intercalate (unknown.map Text.quoted) ++ "]") := by
    rw [Toml.Value.text_array, Toml.Value.elementTexts_strings]
    rfl
  have hchecked := checked_checkNames hmembers
  generalize hresult : checkNames value = result at hchecked
  cases hchecked with
  | unordered hmem hrank =>
    obtain ⟨other, -, rfl⟩ := List.mem_map.mp hmem
    contradiction
  | unlike ha hb _ _ hranka hrankb hsort =>
    obtain ⟨first, -, rfl⟩ := List.mem_map.mp ha
    obtain ⟨second, -, rfl⟩ := List.mem_map.mp hb
    cases hranka
    cases hrankb
    exact absurd rfl hsort
  | known h =>
    obtain ⟨other, hother, heq⟩ := isName_iff.mp (h _ (List.mem_map_of_mem hgiven))
    cases heq
    exact absurd hother hunknown
  | unknown =>
    refine ⟨unknown, hare, ?_⟩
    rw [horder, strangersError, htext]

end Settings

end Accumulator
