import Mathlib.Data.List.Forall2

/-!
Attempts in a row. Work that is done for each member of a list in order, and ends with the first
failure, succeeds exactly if each member's does by itself, and fails like the first that fails. So
what becomes of a row (`fate`) depends on what becomes of each member's work and not on the results.
-/

set_option autoImplicit false
set_option relaxedAutoImplicit false

namespace Accumulator

variable {α β γ ε : Type} {f : α → Except ε β}

theorem bind_eq_ok_iff {first : Except ε α} {next : α → Except ε β} {result : β} :
    (first >>= next) = .ok result ↔ ∃ value, first = .ok value ∧ next value = .ok result := by
  cases first with
  | error failure => simp [Bind.bind, Except.bind]
  | ok value => simp [Bind.bind, Except.bind]

theorem exists_bind_pure_iff {first : Except ε α} {make : α → β} :
    (∃ result, (first >>= fun value ↦ pure (make value)) = .ok result) ↔
      ∃ value, first = .ok value := by
  constructor
  · rintro ⟨result, h⟩
    obtain ⟨value, hfirst, -⟩ := bind_eq_ok_iff.mp h
    exact ⟨value, hfirst⟩
  · rintro ⟨value, rfl⟩
    exact ⟨make value, rfl⟩

theorem mapM_eq_ok_iff (members : List α) (results : List β) :
    members.mapM f = .ok results ↔
      List.Forall₂ (fun member result ↦ f member = .ok result) members results := by
  induction members generalizing results with
  | nil =>
    rw [List.mapM_nil, List.forall₂_nil_left_iff]
    exact ⟨fun h ↦ (Except.ok.inj h).symm, fun h ↦ h ▸ rfl⟩
  | cons member members ih =>
    rw [List.mapM_cons, bind_eq_ok_iff, List.forall₂_cons_left_iff]
    constructor
    · rintro ⟨result, hfirst, h⟩
      obtain ⟨rest, hrest, hresults⟩ := bind_eq_ok_iff.mp h
      cases hresults
      exact ⟨result, rest, hfirst, (ih rest).mp hrest, rfl⟩
    · rintro ⟨result, rest, hfirst, hrest, rfl⟩
      exact ⟨result, hfirst, bind_eq_ok_iff.mpr ⟨rest, (ih rest).mpr hrest, rfl⟩⟩

theorem exists_of_mem_results {members : List α} {results : List β}
    (h : members.mapM f = .ok results) {result : β} (hmem : result ∈ results) :
    ∃ member ∈ members, f member = .ok result := by
  rw [mapM_eq_ok_iff] at h
  induction h with
  | nil => exact absurd hmem List.not_mem_nil
  | cons hfirst _ ih =>
    rcases List.mem_cons.mp hmem with rfl | hrest
    · exact ⟨_, List.mem_cons_self, hfirst⟩
    · obtain ⟨member, hmember, hresult⟩ := ih hrest
      exact ⟨member, List.mem_cons_of_mem _ hmember, hresult⟩

/-- The results in their places, each from the member in the same place. -/
theorem getElem?_results_iff {members : List α} {results : List β}
    (h : members.mapM f = .ok results) (i : Nat) (result : β) :
    results[i]? = some result ↔ ∃ member, members[i]? = some member ∧ f member = .ok result := by
  rw [mapM_eq_ok_iff] at h
  induction h generalizing i with
  | nil => simp
  | cons hfirst _ ih =>
    cases i with
    | zero => simp [hfirst]
    | succ i => exact ih i

theorem exists_result_at {members : List α} {results : List β} (h : members.mapM f = .ok results)
    {i : Nat} {member : α} (hat : members[i]? = some member) :
    ∃ result, results[i]? = some result ∧ f member = .ok result := by
  have hi := (List.getElem?_eq_some_iff.mp hat).1
  rw [((mapM_eq_ok_iff _ _).mp h).length_eq] at hi
  have hsome := List.getElem?_eq_getElem hi
  obtain ⟨other, hother, hresult⟩ := (getElem?_results_iff h i _).mp hsome
  rw [hat] at hother
  cases hother
  exact ⟨_, hsome, hresult⟩

theorem exists_mapM_eq_ok_iff (members : List α) :
    (∃ results, members.mapM f = .ok results) ↔ ∀ member ∈ members, ∃ result, f member = .ok result
    := by
  induction members with
  | nil => exact ⟨fun _ _ hmem ↦ absurd hmem List.not_mem_nil, fun _ ↦ ⟨[], rfl⟩⟩
  | cons member members ih =>
    rw [List.forall_mem_cons, ← ih]
    constructor
    · rintro ⟨results, h⟩
      rw [mapM_eq_ok_iff, List.forall₂_cons_left_iff] at h
      obtain ⟨result, rest, hfirst, hrest, -⟩ := h
      exact ⟨⟨result, hfirst⟩, rest, (mapM_eq_ok_iff _ _).mpr hrest⟩
    · rintro ⟨⟨result, hfirst⟩, rest, hrest⟩
      refine ⟨result :: rest, (mapM_eq_ok_iff _ _).mpr ?_⟩
      exact .cons hfirst ((mapM_eq_ok_iff _ _).mp hrest)

/-- The first failure is that of the whole row, whatever comes after it. -/
theorem mapM_eq_error_of_first {before after : List α} {member : α} {failure : ε}
    (hbefore : ∀ earlier ∈ before, ∃ result, f earlier = .ok result)
    (hfails : f member = .error failure) :
    (before ++ member :: after).mapM f = .error failure := by
  induction before with
  | nil =>
    rw [List.nil_append, List.mapM_cons, hfails]
    rfl
  | cons earlier before ih =>
    obtain ⟨⟨result, hearlier⟩, hrest⟩ := List.forall_mem_cons.mp hbefore
    rw [List.cons_append, List.mapM_cons, hearlier, ih hrest]
    rfl

/-- What became of an attempt, its result apart. -/
def fate (attempt : Except ε α) : Except ε Unit := attempt.map fun _ ↦ ()

theorem fate_bind_pure (attempt : Except ε α) (make : α → β) :
    fate (attempt >>= fun result ↦ pure (make result)) = fate attempt := by
  cases attempt <;> rfl

theorem fate_mapM_congr {g : α → Except ε γ} (members : List α)
    (h : ∀ member ∈ members, fate (g member) = fate (f member)) :
    fate (members.mapM g) = fate (members.mapM f) := by
  induction members with
  | nil => rfl
  | cons member members ih =>
    obtain ⟨hfirst, hrest⟩ := List.forall_mem_cons.mp h
    rw [List.mapM_cons, List.mapM_cons]
    cases hg : g member with
    | error failure =>
      cases hf : f member with
      | error failure' =>
        rw [hg, hf] at hfirst
        cases hfirst
        rfl
      | ok result =>
        rw [hg, hf] at hfirst
        contradiction
    | ok result =>
      cases hf : f member with
      | error failure =>
        rw [hg, hf] at hfirst
        contradiction
      | ok result' =>
        calc fate (members.mapM g >>= fun results ↦ pure (result :: results))
            = fate (members.mapM g) := fate_bind_pure _ _
          _ = fate (members.mapM f) := ih hrest
          _ = fate (members.mapM f >>= fun results ↦ pure (result' :: results)) :=
            (fate_bind_pure _ _).symm

end Accumulator
