import Itou.Addresses.Geolocation

/-!
# When each object gets its own place

Positions pair the objects with the rows of the answer. An answer that tells the addresses apart shows when they differ.
-/

namespace Itou.Addresses

open Itou.Lib

section

variable {σ π : Type} [LinearOrder σ] {scale : Scale σ} {objects header body : Reading σ π}

theorem nodup_localizable (objects : Reading σ π) : ((objects.localizable scale).map (·.pk)).Nodup := by
  have hperm := (List.perm_insertionSort (fun x y : Place σ π => x.pk ≤ y.pk) (objects.rows.filter fun obj =>
    obj.isNonGeolocated scale && !(obj.addressLine1.isEmpty || obj.postCode.isEmpty))).map Place.pk
  exact hperm.nodup_iff.mpr (objects.pks.sublist (List.filter_sublist.map _))

/-- Pairs with a list that starts with the images of the elements. -/
theorem zip_map_append {α β γ : Type} (f : α → β) (g : β → γ) (l : List α) (rest : List β) :
    l.zip ((l.map f ++ rest).map g) = l.map fun a => (a, g (f a)) := by
  induction l with
  | nil => rfl
  | cons a l ih => rw [List.map_cons, List.cons_append, List.map_cons, List.zip_cons_cons, ih, List.map_cons]

/-- With the same addresses, the pairs are right. -/
theorem ownPlaces_of_sameAddresses (h : SameAddresses scale objects header body)
    (answer : Text × Text → GeoResult σ π) : OwnPlaces scale answer objects header body := by
  unfold OwnPlaces geolocateQs
  by_cases hnil : objects.localizable scale = []
  · rw [if_pos hnil, hnil]
    rfl
  · obtain ⟨hheader, rest, hbody⟩ := h.resolve_left hnil
    rw [if_neg hnil, batch, addressesToCsv, if_neg hheader, ← hbody, Except.map, Except.map, zip_map_append,
      List.filter_map, List.map_map]
    rfl

/-- An answer that has an address for `a` only, as good as the one that the object has. -/
def answerFor (scale : Scale σ) (point : π) (obj : Place σ π) (address : Text × Text) : GeoResult σ π where
  resultScore := if address = obj.address then some (max scale.reliance (obj.geocodingScore.getD scale.reliance)) else none
  resultLabel := []
  point := point

theorem isImproved_answerFor (point : π) (obj : Place σ π) :
    obj.isImproved scale (answerFor scale point obj obj.address) = true := by
  simp only [Place.isImproved, GeoResult.score, answerFor, if_true, Option.getD_some, Bool.and_eq_true,
    decide_eq_true_eq, Bool.not_eq_true', Option.any_eq_false]
  refine ⟨le_max_left _ _, fun score hscore => ?_⟩
  rw [hscore, Option.getD_some]
  simp

/-- Without an address, no object is improved. -/
theorem eq_of_isImproved_answerFor {point : π} {obj other : Place σ π} {address : Text × Text}
    (h : other.isImproved scale (answerFor scale point obj address) = true) : address = obj.address := by
  by_contra hne
  simp only [Place.isImproved, GeoResult.score, answerFor, if_neg hne, Option.getD_none, Bool.and_eq_true,
    decide_eq_true_eq] at h
  exact absurd h.1 (not_le.mpr scale.zero_lt_reliance)

/-- When the pairs are right for each answer, each object has its own address in its pair. -/
theorem sameAddresses_of_ownPlaces (point : π)
    (h : ∀ answer : Text × Text → GeoResult σ π, OwnPlaces scale answer objects header body) :
    SameAddresses scale objects header body := by
  by_cases hnil : objects.localizable scale = []
  · exact Or.inl hnil
  · refine Or.inr ?_
    have hheader : header.localizable scale ≠ [] := by
      intro hheader
      obtain ⟨obj, hobj⟩ := List.exists_mem_of_ne_nil _ hnil
      have hown := h (answerFor scale point obj)
      rw [OwnPlaces, geolocateQs, if_neg hnil, batch, addressesToCsv, if_pos hheader] at hown
      cases hown
    refine ⟨hheader, List.prefix_iff_getElem?.mpr fun i hi => ?_⟩
    rw [List.length_map] at hi
    obtain ⟨obj, hobj⟩ : ∃ obj, (objects.localizable scale)[i]? = some obj :=
      ⟨_, List.getElem?_eq_getElem hi⟩
    have hown := h (answerFor scale point obj)
    rw [OwnPlaces, geolocateQs, if_neg hnil, batch, addressesToCsv, if_neg hheader, Except.map, Except.map,
      Except.ok.injEq] at hown
    -- The object is yielded, and so its pair is with its own address.
    have hkept : obj ∈ (objects.localizable scale).filter fun o =>
        o.isImproved scale (answerFor scale point obj o.address) :=
      List.mem_filter.mpr ⟨List.mem_of_getElem? hobj, isImproved_answerFor point obj⟩
    have hyielded := List.mem_map_of_mem
      (f := fun o => Place.geolocated scale o (answerFor scale point obj o.address)) hkept
    rw [← hown, List.mem_map] at hyielded
    obtain ⟨e, he, hplace⟩ := hyielded
    obtain ⟨hmem, himproved⟩ := List.mem_filter.mp he
    obtain ⟨j, hj⟩ := List.mem_iff_getElem?.mp hmem
    obtain ⟨hfirst, hsecond⟩ := List.getElem?_zip_eq_some.mp hj
    have hpk : ((objects.localizable scale).map (·.pk))[i]? = ((objects.localizable scale).map (·.pk))[j]? := by
      rw [List.getElem?_map, List.getElem?_map, hobj, hfirst]
      exact congrArg some (congrArg Place.pk hplace).symm
    obtain rfl := (List.getElem?_inj (by rw [List.length_map]; exact hi) (nodup_localizable objects)).mp hpk
    rw [List.getElem?_map, Option.map_eq_some_iff] at hsecond
    obtain ⟨address, haddress, hanswer⟩ := hsecond
    rw [← hanswer] at himproved
    rw [haddress, eq_of_isImproved_answerFor himproved, List.getElem_map]
    rw [List.getElem?_eq_getElem hi, Option.some.injEq] at hobj
    rw [hobj]


end

end Itou.Addresses
