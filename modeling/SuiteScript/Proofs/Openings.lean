import Mathlib.Data.Finset.Card
import SuiteScript.Listing
import SuiteScript.Proofs.RaisedSerials

/-! # Openings of places

    A listing counts the places that its fixtures and tests are in, without
    regard to where they are opened and closed.  A script opens a place each
    time that it is entered while it is not open.  So a script opens at
    least as many scopes as the listing counts places, and as many if and
    only if no place is entered again once it has been torn down. -/

namespace SuiteScript

/-- The places that steps open one after the other, if `opened` are open at
    the start. -/
def openingsFrom (opened : List Place) : List Step → List Place
  | [] => []
  | step :: rest =>
    (if step.opensPlace opened then [step.place] else []) ++
      openingsFrom (step.openPlaces opened) rest

/-- The places that a plan opens one after the other. -/
def openings (steps : List Step) : List Place := openingsFrom [] steps

theorem length_openingsFrom (opened : List Place) (steps : List Step) :
    (openingsFrom opened steps).length = placesOpened opened steps := by
  induction steps generalizing opened with
  | nil => rfl
  | cons step rest ih =>
    rw [openingsFrom, List.length_append, ih, placesOpened]
    cases step.opensPlace opened <;> rfl

/-- No place is entered by a fixture or test behind its teardown. -/
def NeverReentered (steps : List Step) : Prop :=
  steps.Pairwise fun earlier later =>
    earlier.kind = .teardown → later.kind.runsScript = true → later.place ≠ earlier.place

/-! ### One step more -/

theorem openingsFrom_append (opened : List Place) (steps others : List Step) :
    openingsFrom opened (steps ++ others) =
      openingsFrom opened steps ++ openingsFrom (steps.foldl Step.openPlaces opened) others := by
  induction steps generalizing opened with
  | nil => rfl
  | cons step rest ih =>
    rw [List.cons_append, openingsFrom, openingsFrom, ih, List.append_assoc, List.foldl_cons]

theorem openings_concat (steps : List Step) (step : Step) :
    openings (steps ++ [step]) =
      openings steps ++ if step.opensPlace (openPlaces steps) then [step.place] else [] := by
  rw [openings, openingsFrom_append]
  simp only [openingsFrom, List.append_nil]
  rfl

theorem neverReentered_concat_iff {steps : List Step} {step : Step} :
    NeverReentered (steps ++ [step]) ↔
      NeverReentered steps ∧ (step.kind.runsScript = true →
        ∀ t ∈ steps, t.kind = .teardown → step.place ≠ t.place) := by
  simp only [NeverReentered, List.pairwise_append, List.pairwise_singleton, List.mem_singleton,
    forall_eq, true_and]
  constructor
  · intro h
    exact ⟨h.1, fun hruns t ht hkind => h.2 t ht hkind hruns⟩
  · intro h
    exact ⟨h.1, fun t ht hkind hruns => h.2 hruns t ht hkind⟩

theorem StepKind.eq_teardown_of_not_runsScript {k : StepKind} (h : ¬ k.runsScript = true) :
    k = .teardown := by
  cases k with
  | teardown => rfl
  | _ => exact absurd rfl h

theorem Step.mem_openPlaces_iff_of_runs {opened : List Place} {step : Step} {p : Place}
    (h : step.kind.runsScript = true) :
    p ∈ step.openPlaces opened ↔ p = step.place ∨ p ∈ opened := by
  unfold openPlaces
  rw [if_pos h]
  by_cases hmem : step.place ∈ opened
  · rw [if_pos hmem]
    constructor
    · exact Or.inr
    · intro h
      rcases h with rfl | hp
      · exact hmem
      · exact hp
  · rw [if_neg hmem, List.mem_cons]

theorem Step.openPlaces_of_not_runs {opened : List Place} {step : Step}
    (h : ¬ step.kind.runsScript = true) : step.openPlaces opened = opened.erase step.place :=
  if_neg h

theorem nodup_openPlaces (steps : List Step) : (openPlaces steps).Nodup := by
  induction steps using List.reverseRec with
  | nil => exact List.nodup_nil
  | append_singleton steps step ih =>
    rw [openPlaces_concat, Step.openPlaces]
    split
    · split
      · exact ih
      · next hmem => exact ih.cons hmem
    · exact ih.erase _

/-! ### What is opened -/

variable {steps : List Step} {p : Place}

/-- What is open has been opened. -/
theorem mem_openings_of_mem_openPlaces (h : p ∈ openPlaces steps) : p ∈ openings steps := by
  induction steps using List.reverseRec with
  | nil => cases h
  | append_singleton steps step ih =>
    rw [openPlaces_concat] at h
    rw [openings_concat, List.mem_append]
    by_cases hruns : step.kind.runsScript = true
    · rcases (Step.mem_openPlaces_iff_of_runs hruns).mp h with rfl | hp
      · by_cases hmem : step.place ∈ openPlaces steps
        · exact .inl (ih hmem)
        · exact .inr (by simp [Step.opensPlace, hruns, hmem])
      · exact .inl (ih hp)
    · rw [Step.openPlaces_of_not_runs hruns] at h
      exact .inl (ih (List.mem_of_mem_erase h))

/-- The places that are opened are those of fixtures and tests. -/
theorem mem_openings_iff :
    p ∈ openings steps ↔ ∃ step ∈ steps, step.kind.runsScript = true ∧ step.place = p := by
  induction steps using List.reverseRec with
  | nil => simp [openings, openingsFrom]
  | append_singleton steps step ih =>
    have hopened := @mem_openings_of_mem_openPlaces steps step.place
    rw [openings_concat, List.mem_append, ih]
    simp only [List.mem_append, List.mem_singleton, or_and_right, exists_or, exists_eq_left]
    constructor
    · intro h
      rcases h with hp | hp
      · exact .inl hp
      · by_cases hopens : step.opensPlace (openPlaces steps) = true
        · rw [if_pos hopens, List.mem_singleton] at hp
          exact .inr ⟨(Bool.and_eq_true_iff.mp hopens).1, hp.symm⟩
        · rw [if_neg hopens] at hp
          cases hp
    · intro h
      rcases h with hp | ⟨hruns, rfl⟩
      · exact .inl hp
      · -- a place that need not be opened has been opened before
        by_cases hmem : step.place ∈ openPlaces steps
        · exact .inl (ih.mp (hopened hmem))
        · exact .inr (by simp [Step.opensPlace, hruns, hmem])

/-- What has been opened is still open, or there is a teardown of it. -/
theorem mem_openPlaces_or_torn_down (h : p ∈ openings steps) :
    p ∈ openPlaces steps ∨ ∃ t ∈ steps, t.kind = .teardown ∧ t.place = p := by
  induction steps using List.reverseRec with
  | nil => cases h
  | append_singleton steps step ih =>
    rw [openings_concat, List.mem_append] at h
    rw [openPlaces_concat]
    by_cases hruns : step.kind.runsScript = true
    · rw [Step.mem_openPlaces_iff_of_runs hruns]
      rcases h with h | h
      · rcases ih h with hopen | ⟨t, ht, hdown⟩
        · exact .inl (.inr hopen)
        · exact .inr ⟨t, List.mem_append_left _ ht, hdown⟩
      · split at h
        · exact .inl (.inl (List.mem_singleton.mp h))
        · cases h
    · have hkind := StepKind.eq_teardown_of_not_runsScript hruns
      have hsilent : step.opensPlace (openPlaces steps) = false := by
        simp [Step.opensPlace, hruns]
      rw [hsilent] at h
      rw [Step.openPlaces_of_not_runs hruns]
      by_cases hplace : p = step.place
      · exact .inr ⟨step, by simp, hkind, hplace.symm⟩
      · rcases ih (by simpa using h) with hopen | ⟨t, ht, hdown⟩
        · exact .inl ((List.mem_erase_of_ne hplace).mpr hopen)
        · exact .inr ⟨t, List.mem_append_left _ ht, hdown⟩

/-- What has been torn down and is not entered again is not open. -/
theorem not_mem_openPlaces_of_torn_down (hnever : NeverReentered steps) {t : Step}
    (ht : t ∈ steps) (hkind : t.kind = .teardown) : t.place ∉ openPlaces steps := by
  induction steps using List.reverseRec with
  | nil => cases ht
  | append_singleton steps step ih =>
    obtain ⟨hfront, hlast⟩ := neverReentered_concat_iff.mp hnever
    rw [openPlaces_concat]
    by_cases hruns : step.kind.runsScript = true
    · have ht' : t ∈ steps := by
        rcases List.mem_append.mp ht with ht | ht
        · exact ht
        · rw [List.mem_singleton.mp ht] at hkind
          rw [hkind] at hruns
          cases hruns
      rw [Step.mem_openPlaces_iff_of_runs hruns]
      intro h
      rcases h with hplace | hopen
      · exact hlast hruns t ht' hkind hplace.symm
      · exact ih hfront ht' hopen
    · rw [Step.openPlaces_of_not_runs hruns]
      rcases List.mem_append.mp ht with ht | ht
      · exact fun hopen => ih hfront ht (List.mem_of_mem_erase hopen)
      · -- no place is open twice, so its only occurrence has gone
        rw [List.mem_singleton.mp ht]
        exact (nodup_openPlaces steps).not_mem_erase

/-- In a well-formed plan, what is torn down has been opened. -/
theorem WellFormed.mem_openings_of_torn_down (h : WellFormed steps) {t : Step} (ht : t ∈ steps)
    (hkind : t.kind = .teardown) : t.place ∈ openings steps := by
  obtain ⟨done, rest, rfl⟩ := List.append_of_mem ht
  have hlast := h.teardowns done t rest rfl hkind
  have hopen : t.place ∈ openPlaces done := List.mem_of_mem_head? hlast
  obtain ⟨step, hstep, hruns, hplace⟩ :=
    mem_openings_iff.mp (mem_openings_of_mem_openPlaces hopen)
  exact mem_openings_iff.mpr ⟨step, List.mem_append_left _ hstep, hruns, hplace⟩

/-- A well-formed plan opens no place twice just if it enters none again
    behind its teardown. -/
theorem WellFormed.nodup_openings_iff (h : WellFormed steps) :
    (openings steps).Nodup ↔ NeverReentered steps := by
  induction steps using List.reverseRec with
  | nil => exact iff_of_true List.nodup_nil List.Pairwise.nil
  | append_singleton steps step ih =>
    have hsteps : WellFormed steps := (wellFormed_concat_iff.mp h).1
    rw [openings_concat, neverReentered_concat_iff, ← ih hsteps]
    by_cases hopens : step.opensPlace (openPlaces steps) = true
    · obtain ⟨hruns, hnew⟩ := Bool.and_eq_true_iff.mp hopens
      rw [if_pos hopens, ← List.concat_eq_append, List.nodup_concat, and_comm]
      refine and_congr_right fun _ => ⟨?_, ?_⟩
      · intro hfresh _ t ht hkind hplace
        exact hfresh (hplace ▸ hsteps.mem_openings_of_torn_down ht hkind)
      · intro hentered hmem
        rcases mem_openPlaces_or_torn_down hmem with hopen | ⟨t, ht, hkind, hplace⟩
        · simp [hopen] at hnew
        · exact hentered hruns t ht hkind hplace.symm
    · rw [if_neg hopens, List.append_nil]
      refine ⟨fun hnodup => ⟨hnodup, ?_⟩, And.left⟩
      intro hruns t ht hkind hplace
      -- the place is open, so it has not been torn down
      have hopen : step.place ∈ openPlaces steps := by simpa [Step.opensPlace, hruns] using hopens
      rw [hplace] at hopen
      exact not_mem_openPlaces_of_torn_down ((ih hsteps).mp hnodup) ht hkind hopen

/-! ### Counting places -/

theorem nodup_eraseDups {α : Type} [BEq α] [LawfulBEq α] : (xs : List α) → xs.eraseDups.Nodup
  | [] => by simp
  | x :: rest => by
    rw [List.eraseDups_cons]
    refine (nodup_eraseDups _).cons ?_
    simp [List.mem_eraseDups]
  termination_by xs => xs.length
  decreasing_by exact Nat.lt_succ_of_le (List.length_filter_le _ _)

theorem mem_usedPlaces_iff_mem_openings :
    p ∈ PlanSummary.usedPlaces steps ↔ p ∈ openings steps := by
  rw [mem_openings_iff, PlanSummary.usedPlaces, List.mem_eraseDups]
  simp [and_assoc]

/-- The places of a plan are the places it opens, each counted once. -/
theorem places_eq_card_openings (steps : List Step) :
    (PlanSummary.ofSteps steps).places = (openings steps).toFinset.card := by
  have hsame : (PlanSummary.usedPlaces steps).toFinset = (openings steps).toFinset := by
    ext p
    rw [List.mem_toFinset, List.mem_toFinset, mem_usedPlaces_iff_mem_openings]
  have hnodup : (PlanSummary.usedPlaces steps).Nodup := nodup_eraseDups _
  rw [← hsame, List.toFinset_card_of_nodup hnodup]
  rfl

theorem places_le_length_openings (steps : List Step) :
    (PlanSummary.ofSteps steps).places ≤ (openings steps).length := by
  rw [places_eq_card_openings]
  exact List.toFinset_card_le _

/-- Both counts agree just if no place is entered again behind its teardown. -/
theorem WellFormed.length_openings_eq_places_iff (h : WellFormed steps) :
    (openings steps).length = (PlanSummary.ofSteps steps).places ↔ NeverReentered steps := by
  rw [← h.nodup_openings_iff, places_eq_card_openings, eq_comm]
  exact Multiset.toFinset_card_eq_card_iff_nodup

end SuiteScript
