import Itou.Lib.KeyedTables

/-!
# Rows that change owner

The unique constraint of a table bears on an owner and on the rest of the key. The rows of an owner are given to
another owner one after the other. Where the other owner has a row for the same rest, the new owner's row is kept, merged
with the one it meets, which stays where it is or is deleted.
-/

namespace Itou.Lib

universe u v w x

variable {ρ : Type u} {κ : Type v} {ω : Type w} {ι : Type x}

/-- How the key of a row is made of an owner and of the rest. -/
structure Ownership (c : Columns ρ κ) (ω : Type w) (ι : Type x) where
  owner : ρ → ω
  rest : ρ → ι
  setOwner : ω → ρ → ρ
  pk_setOwner : ∀ o r, c.pk (setOwner o r) = c.pk r
  owner_setOwner : ∀ o r, owner (setOwner o r) = o
  rest_setOwner : ∀ o r, rest (setOwner o r) = rest r
  key_eq_iff : ∀ r s, c.key r = c.key s ↔ owner r = owner s ∧ rest r = rest s

/-- A merge of two rows of one rest: the second is kept, with values of both. The first is deleted when `dispose` says
so. -/
structure Merge (c : Columns ρ κ) where
  dispose : Bool
  merge : ρ → ρ → ρ
  keep : ∀ s r, c.pk (merge s r) = c.pk r ∧ c.key (merge s r) = c.key r

namespace Ownership

variable {c : Columns ρ κ} [DecidableEq ω] [DecidableEq ι] (o : Ownership c ω ι) (m : Merge c) (a b : ω)

/-- The row of the owner that has the rest of `r`. -/
def counterpart (rows : List ρ) (r : ρ) : Option ρ := rows.find? fun t => o.owner t = b && o.rest t = o.rest r

/-- Give one row to the owner `b`. -/
def absorb [DecidableEq κ] (t : KeyedTable c) (s : ρ) : Option (KeyedTable c) :=
  match o.counterpart b t.rows s with
  | some target =>
      let kept := t.modify (fun r => c.pk r = c.pk target) (m.merge s) (m.keep s)
      some (if m.dispose then kept.delete fun r => c.pk r = c.pk s else kept)
  | none => t.update (o.setOwner b s)

/-- The same, when the row is first given as it is, and merged when the constraint refuses it. -/
def upsert [DecidableEq κ] (t : KeyedTable c) (s : ρ) : Option (KeyedTable c) :=
  match t.update (o.setOwner b s) with
  | some t' => some t'
  | none => (o.counterpart b t.rows s).map fun target =>
      let kept := t.modify (fun r => c.pk r = c.pk target) (m.merge s) (m.keep s)
      if m.dispose then kept.delete fun r => c.pk r = c.pk s else kept

/-- Give each row of `a` to `b`. -/
def absorbAll [DecidableEq κ] (t : KeyedTable c) : Option (KeyedTable c) :=
  (t.rows.filter fun r => o.owner r = a).foldlM (o.absorb m b) t

/-- Give each row of `a` to `b`, without a merge. -/
def moveAll [DecidableEq κ] (t : KeyedTable c) : Option (KeyedTable c) :=
  (t.rows.filter fun r => o.owner r = a).foldlM (fun t s => t.update (o.setOwner b s)) t

/-- What becomes of a row once the rows of `done` are given. -/
def fate (rows done : List ρ) (r : ρ) : Option ρ :=
  if done.any fun s => c.pk s = c.pk r then
    match o.counterpart b rows r with
    | some _ => if m.dispose then none else some r
    | none => some (o.setOwner b r)
  else if o.owner r = b then
    match done.find? fun s => o.rest s = o.rest r with
    | some s => some (m.merge s r)
    | none => some r
  else some r

/-- What becomes of a row once all the rows of `a` are given. -/
def given (rows : List ρ) (r : ρ) : Option ρ :=
  if o.owner r = a then
    match o.counterpart b rows r with
    | some _ => if m.dispose then none else some r
    | none => some (o.setOwner b r)
  else if o.owner r = b then
    match o.counterpart a rows r with
    | some s => some (m.merge s r)
    | none => some r
  else some r

/-! ## One row -/

section Step

variable {o m a b} {t t₀ : KeyedTable c} {done : List ρ} {r s target : ρ}

theorem counterpart_eq_some : o.counterpart b t.rows s = some r ↔
    r ∈ t.rows ∧ o.owner r = b ∧ o.rest r = o.rest s := by
  constructor
  · intro h
    have hfound := List.find?_some h
    simp only [Bool.and_eq_true, decide_eq_true_eq] at hfound
    exact ⟨List.mem_of_find?_eq_some h, hfound⟩
  · rintro ⟨hr, howner, hrest⟩
    cases h : o.counterpart b t.rows s with
    | none =>
        have hnone := List.find?_eq_none.mp h r hr
        simp [howner, hrest] at hnone
    | some r' =>
        have hfound := List.find?_some h
        simp only [Bool.and_eq_true, decide_eq_true_eq] at hfound
        rw [KeyedTable.eq_of_key (List.mem_of_find?_eq_some h) hr
          ((o.key_eq_iff r' r).mpr ⟨hfound.1.trans howner.symm, hfound.2.trans hrest.symm⟩)]

/-- The owner `b` has a row of this rest exactly when the row cannot be given as it is. -/
theorem update_eq_none_iff [DecidableEq κ] (hs : s ∈ t.rows) (howner : o.owner s ≠ b) :
    t.update (o.setOwner b s) = none ↔ ∃ target, o.counterpart b t.rows s = some target := by
  rw [KeyedTable.update_eq_none ⟨s, hs, (o.pk_setOwner b s).symm⟩]
  constructor
  · rintro ⟨r, hr, hkey, -⟩
    obtain ⟨hb, hrest⟩ := (o.key_eq_iff _ _).mp hkey
    rw [o.owner_setOwner] at hb
    rw [o.rest_setOwner] at hrest
    exact ⟨r, counterpart_eq_some.mpr ⟨hr, hb, hrest⟩⟩
  · rintro ⟨r, hr⟩
    obtain ⟨hr, hb, hrest⟩ := counterpart_eq_some.mp hr
    refine ⟨r, hr, (o.key_eq_iff _ _).mpr ?_, fun hpk => ?_⟩
    · rw [o.owner_setOwner, o.rest_setOwner]
      exact ⟨hb, hrest⟩
    · rw [o.pk_setOwner] at hpk
      exact howner (KeyedTable.eq_of_pk hr hs hpk ▸ hb)

theorem upsert_eq_absorb [DecidableEq κ] (hs : s ∈ t.rows) (howner : o.owner s ≠ b) :
    o.upsert m b t s = o.absorb m b t s := by
  unfold upsert absorb
  cases hfound : o.counterpart b t.rows s with
  | some target => rw [(update_eq_none_iff hs howner).mpr ⟨target, hfound⟩]; rfl
  | none =>
      cases hupdate : t.update (o.setOwner b s) with
      | some t' => rfl
      | none =>
          obtain ⟨target, htarget⟩ := (update_eq_none_iff hs howner).mp hupdate
          rw [hfound] at htarget
          cases htarget

/-- What is known of the rows that are given: they are rows of `a`. -/
def Given (a : ω) (t₀ : KeyedTable c) (done : List ρ) : Prop := ∀ s ∈ done, s ∈ t₀.rows ∧ o.owner s = a

omit [DecidableEq ω] [DecidableEq ι] in
theorem any_pk_iff (hdone : Given (o := o) a t₀ done) (hr : r ∈ t₀.rows) :
    (done.any fun s => c.pk s = c.pk r) ↔ r ∈ done := by
  rw [List.any_eq_true]
  constructor
  · rintro ⟨s, hs, hpk⟩
    exact KeyedTable.eq_of_pk (hdone s hs).1 hr (of_decide_eq_true hpk) ▸ hs
  · intro hmem
    exact ⟨r, hmem, decide_eq_true rfl⟩

omit [DecidableEq ω] [DecidableEq ι] in
/-- A row of `a` is found among those given by its rest. -/
theorem eq_of_rest (hdone : Given (o := o) a t₀ done) (hr : r ∈ done) (hs : s ∈ t₀.rows) (howner : o.owner s = a)
    (hrest : o.rest r = o.rest s) : r = s :=
  KeyedTable.eq_of_key (hdone r hr).1 hs ((o.key_eq_iff r s).mpr ⟨(hdone r hr).2.trans howner.symm, hrest⟩)

omit [DecidableEq ω] in
theorem find?_rest (hdone : Given (o := o) a t₀ done) (hs : s ∈ t₀.rows) (howner : o.owner s = a) (hnot : s ∉ done)
    (hrest : o.rest r = o.rest s) : done.find? (fun s => o.rest s = o.rest r) = none := by
  rw [List.find?_eq_none]
  intro s' hs' h
  exact hnot (eq_of_rest hdone hs' hs howner ((of_decide_eq_true h).trans hrest) ▸ hs')

/-- The row that is given next is as it was. -/
theorem fate_next (hab : a ≠ b) (hdone : Given (o := o) a t₀ done) (hs : s ∈ t₀.rows) (howner : o.owner s = a)
    (hnot : s ∉ done) : o.fate m b t₀.rows done s = some s := by
  unfold fate
  rw [if_neg (fun h => hnot ((any_pk_iff hdone hs).mp h)), if_neg (howner ▸ hab)]

/-- The row that it meets is as it was too. -/
theorem fate_counterpart (hab : a ≠ b) (hdone : Given (o := o) a t₀ done) (hs : s ∈ t₀.rows) (howner : o.owner s = a)
    (hnot : s ∉ done) (ht : target ∈ t₀.rows) (htowner : o.owner target = b) (hrest : o.rest target = o.rest s) :
    o.fate m b t₀.rows done target = some target := by
  unfold fate
  rw [if_neg (fun h => hab ((hdone target ((any_pk_iff hdone ht).mp h)).2.symm.trans htowner)), if_pos htowner,
    find?_rest hdone hs howner hnot hrest]

/-- A row keeps its primary key. -/
theorem pk_of_fate {r' : ρ} (h : o.fate m b t₀.rows done r = some r') : c.pk r' = c.pk r := by
  unfold fate at h
  split at h
  · split at h
    · split at h
      · cases h
      · cases h
        rfl
    · cases h
      exact o.pk_setOwner b r
  · split at h
    · split at h
      · cases h
        exact (m.keep _ _).1
      · cases h
        rfl
    · cases h
      rfl

/-- The other rows do not see that `s` is given. -/
theorem fate_concat_of_ne (hs : s ∈ t₀.rows) (hr : r ∈ t₀.rows) (hne : r ≠ s)
    (hrest : o.owner r = b → o.rest r ≠ o.rest s) :
    o.fate m b t₀.rows (done ++ [s]) r = o.fate m b t₀.rows done r := by
  have hpk : c.pk s ≠ c.pk r := fun h => hne (KeyedTable.eq_of_pk hr hs h.symm)
  unfold fate
  simp only [List.any_append, List.any_cons, List.any_nil, hpk, decide_false, Bool.or_false]
  split
  · rfl
  · split
    · rename_i howner
      have hrest' : o.rest s ≠ o.rest r := (hrest howner).symm
      rw [List.find?_append]
      simp [hrest']
    · rfl

/-- The row of `b` that `s` meets is the same at any time. -/
theorem counterpart_of_fates (hab : a ≠ b) (hdone : Given (o := o) a t₀ done) (hs : s ∈ t₀.rows) (howner : o.owner s = a)
    (hnot : s ∉ done) (ht : t.rows = t₀.rows.filterMap (o.fate m b t₀.rows done)) :
    o.counterpart b t.rows s = o.counterpart b t₀.rows s := by
  refine Option.ext fun r' => ?_
  rw [counterpart_eq_some, counterpart_eq_some]
  constructor
  · rintro ⟨hr', howner', hrest⟩
    rw [ht] at hr'
    obtain ⟨r, hr, hfate⟩ := List.mem_filterMap.mp hr'
    unfold fate at hfate
    split at hfate
    · rename_i hany
      have hmem := (any_pk_iff hdone hr).mp hany
      split at hfate
      · split at hfate
        · cases hfate
        · cases hfate
          exact absurd ((hdone r' hmem).2.symm.trans howner') hab
      · cases hfate
        rw [o.rest_setOwner] at hrest
        exact absurd (eq_of_rest hdone hmem hs howner hrest ▸ hmem) hnot
    · split at hfate
      · rename_i hb
        split at hfate
        · rename_i s' hs'
          cases hfate
          have hkey := (o.key_eq_iff _ _).mp (m.keep s' r).2
          have hfound : o.rest s' = o.rest r :=
            of_decide_eq_true (List.find?_some (p := fun s => decide (o.rest s = o.rest r)) hs')
          have hrest' : o.rest s' = o.rest s := hfound.trans (hkey.2.symm.trans hrest)
          have hmem := List.mem_of_find?_eq_some hs'
          exact absurd (eq_of_rest hdone hmem hs howner hrest' ▸ hmem) hnot
        · cases hfate
          exact ⟨hr, hb, hrest⟩
      · cases hfate
        exact ⟨hr, howner', hrest⟩
  · rintro ⟨hr, hb, hrest⟩
    refine ⟨ht ▸ List.mem_filterMap.mpr ⟨r', hr, ?_⟩, hb, hrest⟩
    exact fate_counterpart hab hdone hs howner hnot hr hb hrest

/-- One row is given. -/
theorem absorb_fates [DecidableEq κ] (hab : a ≠ b) (hdone : Given (o := o) a t₀ done) (hs : s ∈ t₀.rows)
    (howner : o.owner s = a) (hnot : s ∉ done) (ht : t.rows = t₀.rows.filterMap (o.fate m b t₀.rows done)) :
    ∃ t', o.absorb m b t s = some t' ∧ t'.rows = t₀.rows.filterMap (o.fate m b t₀.rows (done ++ [s])) := by
  have hcounterpart := counterpart_of_fates hab hdone hs howner hnot ht
  have hself : (done ++ [s]).any (fun s' => c.pk s' = c.pk s) = true := by simp
  unfold absorb
  rw [hcounterpart]
  cases hfound : o.counterpart b t₀.rows s with
  | some target =>
      obtain ⟨htarget, htowner, htrest⟩ := counterpart_eq_some.mp hfound
      have hne : c.pk s ≠ c.pk target := fun h =>
        hab (howner.symm.trans ((KeyedTable.eq_of_pk hs htarget h) ▸ htowner))
      have hrows : ((t.modify (fun r => c.pk r = c.pk target) (m.merge s) (m.keep s)).rows.filter
          fun r => !(m.dispose && decide (c.pk r = c.pk s))) = t₀.rows.filterMap (o.fate m b t₀.rows (done ++ [s])) := by
        simp only [KeyedTable.modify, ht, List.map_filterMap, List.filter_filterMap]
        refine List.filterMap_congr fun r hr => ?_
        by_cases hrs : r = s
        · subst hrs
          rw [fate_next hab hdone hs howner hnot]
          unfold fate
          cases m.dispose <;> simp [hfound, hne]
        · by_cases hrt : r = target
          · subst hrt
            rw [fate_counterpart hab hdone hs howner hnot htarget htowner htrest]
            have hnotDone : r ∉ done := fun h => hab ((hdone r h).2.symm.trans htowner)
            have hany : (done.any fun s' => decide (c.pk s' = c.pk r)) = false :=
              Bool.not_eq_true _ ▸ fun h => hnotDone ((any_pk_iff hdone htarget).mp h)
            unfold fate
            rw [List.any_append, hany, List.find?_append, find?_rest hdone hs howner hnot htrest]
            simp [hne, hne.symm, htowner, htrest, (m.keep s r).1]
          · rw [fate_concat_of_ne hs hr hrs fun hb hrest => hrt ?_]
            · cases hfate : o.fate m b t₀.rows done r with
              | none => rfl
              | some r' =>
                  have hpk := pk_of_fate hfate
                  have hpks : c.pk r ≠ c.pk s := fun h => hrs (KeyedTable.eq_of_pk hr hs h)
                  have hpkt : c.pk r ≠ c.pk target := fun h => hrt (KeyedTable.eq_of_pk hr htarget h)
                  simp [hpk, hpks, hpkt]
            · exact KeyedTable.eq_of_key hr htarget
                ((o.key_eq_iff r target).mpr ⟨hb.trans htowner.symm, hrest.trans htrest.symm⟩)
      refine ⟨_, rfl, ?_⟩
      rw [← hrows]
      cases m.dispose <;> simp [KeyedTable.delete]
  | none =>
      have hmem : s ∈ t.rows := ht ▸ List.mem_filterMap.mpr ⟨s, hs, fate_next hab hdone hs howner hnot⟩
      cases hupdate : t.update (o.setOwner b s) with
      | none =>
          obtain ⟨r, hr⟩ := (update_eq_none_iff hmem (howner ▸ hab)).mp hupdate
          rw [hcounterpart, hfound] at hr
          cases hr
      | some t' =>
          refine ⟨t', rfl, ?_⟩
          rw [KeyedTable.update_eq_some.mp hupdate, ht, List.map_filterMap, o.pk_setOwner]
          refine List.filterMap_congr fun r hr => ?_
          by_cases hrs : r = s
          · subst hrs
            rw [fate_next hab hdone hs howner hnot]
            unfold fate
            simp [hfound]
          · rw [fate_concat_of_ne hs hr hrs fun hb hrest => ?_]
            · cases hfate : o.fate m b t₀.rows done r with
              | none => rfl
              | some r' =>
                  have hpk := pk_of_fate hfate
                  have hpks : c.pk r ≠ c.pk s := fun h => hrs (KeyedTable.eq_of_pk hr hs h)
                  simp [hpk, hpks]
            · rw [counterpart_eq_some.mpr ⟨hr, hb, hrest⟩] at hfound
              cases hfound

/-- The rows that are left are given one after the other, in one way or the other. -/
theorem foldlM_absorb [DecidableEq κ] (hab : a ≠ b) {todo : List ρ} (hnodup : (done ++ todo).Nodup)
    (hgiven : Given (o := o) a t₀ (done ++ todo)) (ht : t.rows = t₀.rows.filterMap (o.fate m b t₀.rows done)) :
    ∃ t', todo.foldlM (o.absorb m b) t = some t' ∧ todo.foldlM (o.upsert m b) t = some t' ∧
      t'.rows = t₀.rows.filterMap (o.fate m b t₀.rows (done ++ todo)) := by
  induction todo generalizing done t with
  | nil => exact ⟨t, rfl, rfl, by rw [ht, List.append_nil]⟩
  | cons s todo ih =>
      have hs := hgiven s (List.mem_append_right done List.mem_cons_self)
      have hnot : s ∉ done := fun h => (List.nodup_append.mp hnodup).2.2 s h s List.mem_cons_self rfl
      have hdone : Given (o := o) a t₀ done := fun r hr => hgiven r (List.mem_append_left _ hr)
      obtain ⟨next, hnext, hrows⟩ := absorb_fates (m := m) hab hdone hs.1 hs.2 hnot ht
      have hmem : s ∈ t.rows := ht ▸ List.mem_filterMap.mpr ⟨s, hs.1, fate_next hab hdone hs.1 hs.2 hnot⟩
      have hupsert : o.upsert m b t s = some next := (upsert_eq_absorb hmem (hs.2 ▸ hab)).trans hnext
      have happend : done ++ s :: todo = (done ++ [s]) ++ todo := by simp
      rw [happend] at hnodup hgiven ⊢
      obtain ⟨t', habsorb, hupserts, hrows'⟩ := ih hnodup hgiven hrows
      refine ⟨t', ?_, ?_, hrows'⟩
      · rw [List.foldlM_cons, hnext]
        exact habsorb
      · rw [List.foldlM_cons, hupsert]
        exact hupserts

theorem fate_all (hr : r ∈ t.rows) :
    o.fate m b t.rows (t.rows.filter fun r => o.owner r = a) r = o.given m a b t.rows r := by
  have hgiven : Given (o := o) a t (t.rows.filter fun r => o.owner r = a) := fun s hs => by
    simpa using hs
  have hany : (t.rows.filter fun r => o.owner r = a).any (fun s => c.pk s = c.pk r) = decide (o.owner r = a) := by
    rw [Bool.eq_iff_iff, any_pk_iff hgiven hr, decide_eq_true_iff]
    simp [hr]
  unfold fate given
  rw [hany, List.find?_filter]
  simp only [decide_eq_true_eq, counterpart, Bool.decide_and]

end Step

section All

variable {o m a b} {t t' : KeyedTable c}

/-- All the rows of `a` are given, and no constraint refuses it. -/
theorem absorbAll_eq [DecidableEq κ] (hab : a ≠ b) :
    ∃ t', o.absorbAll m a b t = some t' ∧ (t.rows.filter fun r => o.owner r = a).foldlM (o.upsert m b) t = some t' ∧
      t'.rows = t.rows.filterMap (o.given m a b t.rows) := by
  have hsources : ([] ++ t.rows.filter fun r => o.owner r = a).Nodup := t.pks.of_map.filter _
  have hstart : t.rows = t.rows.filterMap (o.fate m b t.rows []) := by
    have hid : ∀ r ∈ t.rows, o.fate m b t.rows [] r = some r := fun r _ => by simp [fate]
    rw [List.filterMap_congr hid, List.filterMap_some]
  obtain ⟨t', ht', hupsert, hrows⟩ := foldlM_absorb (o := o) (m := m) (b := b) hab hsources
    (fun s hs => by simpa using hs) hstart
  exact ⟨t', ht', hupsert, hrows.trans (List.filterMap_congr fun r hr => fate_all hr)⟩

theorem rows_of_absorbAll [DecidableEq κ] (hab : a ≠ b) (h : o.absorbAll m a b t = some t') :
    t'.rows = t.rows.filterMap (o.given m a b t.rows) := by
  obtain ⟨t'', ht'', -, hrows⟩ := absorbAll_eq (o := o) (m := m) (t := t) hab
  rw [h, Option.some.injEq] at ht''
  exact ht'' ▸ hrows

/-- A row of `b` stays one, for the same rest. -/
theorem exists_of_owner_absorbAll [DecidableEq κ] (hab : a ≠ b) (h : o.absorbAll m a b t = some t') {r : ρ}
    (hr : r ∈ t.rows) (howner : o.owner r = b) : ∃ r' ∈ t'.rows, o.owner r' = b ∧ o.rest r' = o.rest r ∧
      r' = match o.counterpart a t.rows r with
        | some s => m.merge s r
        | none => r := by
  rw [rows_of_absorbAll hab h]
  have hne : o.owner r ≠ a := howner ▸ hab.symm
  cases hs : o.counterpart a t.rows r with
  | none => exact ⟨r, List.mem_filterMap.mpr ⟨r, hr, by simp [given, howner, hab.symm, hs]⟩, howner, rfl, rfl⟩
  | some s =>
      have hkey := (o.key_eq_iff _ _).mp (m.keep s r).2
      exact ⟨m.merge s r, List.mem_filterMap.mpr ⟨r, hr, by simp [given, howner, hab.symm, hs]⟩,
        hkey.1.trans howner, hkey.2, rfl⟩

/-- A row of `a` that is left met a row of `b`. -/
theorem exists_counterpart_of_left [DecidableEq κ] (hab : a ≠ b) (h : o.absorbAll m a b t = some t') {r : ρ}
    (hr : r ∈ t'.rows) (howner : o.owner r = a) :
    m.dispose = false ∧ r ∈ t.rows ∧ ∃ target, o.counterpart b t.rows r = some target := by
  rw [rows_of_absorbAll hab h] at hr
  obtain ⟨r₀, hr₀, hgiven⟩ := List.mem_filterMap.mp hr
  unfold given at hgiven
  split at hgiven
  · split at hgiven
    · rename_i target htarget
      split at hgiven
      · cases hgiven
      · rename_i hdispose
        cases hgiven
        exact ⟨Bool.not_eq_true _ ▸ hdispose, hr₀, target, htarget⟩
    · cases hgiven
      rw [o.owner_setOwner] at howner
      exact absurd howner.symm hab
  · rename_i hne
    split at hgiven
    · rename_i hb
      split at hgiven
      · cases hgiven
        exact absurd (((o.key_eq_iff _ _).mp (m.keep _ _).2).1.symm.trans howner) hne
      · cases hgiven
        exact absurd howner hne
    · cases hgiven
      exact absurd howner hne

/-- To give the rows a second time changes nothing, when a merge does not. -/
theorem absorbAll_absorbAll [DecidableEq κ] (hab : a ≠ b) (hmerge : ∀ s r, m.merge s (m.merge s r) = m.merge s r)
    (h : o.absorbAll m a b t = some t') : o.absorbAll m a b t' = some t' := by
  obtain ⟨t'', ht'', -, hrows⟩ := absorbAll_eq (o := o) (m := m) (t := t') hab
  rw [ht'', Option.some.injEq]
  refine KeyedTable.ext (hrows.trans ?_)
  have hid : ∀ r ∈ t'.rows, o.given m a b t'.rows r = some r := by
    intro r hr
    unfold given
    split
    · rename_i howner
      split
      · rename_i target htarget
        rw [(exists_counterpart_of_left hab h hr howner).1]
        rfl
      · rename_i hnone
        obtain ⟨-, -, target, htarget⟩ := exists_counterpart_of_left hab h hr howner
        obtain ⟨htmem, htowner, htrest⟩ := counterpart_eq_some.mp htarget
        obtain ⟨r', hr', howner', hrest', -⟩ := exists_of_owner_absorbAll hab h htmem htowner
        rw [counterpart_eq_some.mpr ⟨hr', howner', hrest'.trans htrest⟩] at hnone
        cases hnone
    · split
      · rename_i howner
        split
        · rename_i s hs
          obtain ⟨hsmem, hsowner, hsrest⟩ := counterpart_eq_some.mp hs
          obtain ⟨-, hs₀, target, htarget⟩ := exists_counterpart_of_left hab h hsmem hsowner
          obtain ⟨htmem, htowner, htrest⟩ := counterpart_eq_some.mp htarget
          -- The row of `b` is the one that `s` met, already merged with it.
          obtain ⟨r', hr', howner', hrest', heq⟩ := exists_of_owner_absorbAll hab h htmem htowner
          rw [counterpart_eq_some.mpr ⟨hs₀, hsowner, htrest.symm⟩] at heq
          have hsame : r' = r := KeyedTable.eq_of_key hr' hr ((o.key_eq_iff _ _).mpr
            ⟨howner'.trans howner.symm, hrest'.trans (htrest.trans hsrest)⟩)
          rw [← hsame, heq]
          exact congrArg some (hmerge s target)
        · rfl
      · rfl
  rw [List.filterMap_congr hid, List.filterMap_some]

/-- What the rows given one after the other leave, from the table as it was and from the table as it is then. -/
theorem foldlM_upsert_again [DecidableEq κ] (hab : a ≠ b) (hmerge : ∀ s r, m.merge s (m.merge s r) = m.merge s r)
    {u : KeyedTable c} (hu : u = t ∨ u = (o.absorbAll m a b t).getD t) :
    (u.rows.filter fun r => o.owner r = a).foldlM (o.upsert m b) u = some ((o.absorbAll m a b t).getD t) := by
  obtain ⟨t', habsorb, hupsert, -⟩ := absorbAll_eq (o := o) (m := m) (t := t) hab
  rw [habsorb, Option.getD_some] at hu ⊢
  rcases hu with rfl | rfl
  · exact hupsert
  · obtain ⟨t'', habsorb', hupsert', -⟩ := absorbAll_eq (o := o) (m := m) (t := u) hab
    rw [absorbAll_absorbAll hab hmerge habsorb, Option.some.injEq] at habsorb'
    exact habsorb' ▸ hupsert'

/-- The rests that `b` has in the end are those of both. -/
theorem exists_owner_iff [DecidableEq κ] (hab : a ≠ b) (h : o.absorbAll m a b t = some t') {i : ι} :
    (∃ r ∈ t'.rows, o.owner r = b ∧ o.rest r = i) ↔ ∃ r ∈ t.rows, (o.owner r = a ∨ o.owner r = b) ∧ o.rest r = i := by
  constructor
  · rintro ⟨r', hr', howner, hrest⟩
    rw [rows_of_absorbAll hab h] at hr'
    obtain ⟨r, hr, hgiven⟩ := List.mem_filterMap.mp hr'
    unfold given at hgiven
    split at hgiven
    · rename_i ha
      split at hgiven
      · split at hgiven
        · cases hgiven
        · cases hgiven
          exact ⟨r', hr, Or.inl ha, hrest⟩
      · cases hgiven
        rw [o.rest_setOwner] at hrest
        exact ⟨r, hr, Or.inl ha, hrest⟩
    · split at hgiven
      · rename_i hb
        split at hgiven
        · cases hgiven
          exact ⟨r, hr, Or.inr hb, ((o.key_eq_iff _ _).mp (m.keep _ _).2).2.symm.trans hrest⟩
        · cases hgiven
          exact ⟨r', hr, Or.inr hb, hrest⟩
      · cases hgiven
        exact ⟨r', hr, Or.inr howner, hrest⟩
  · rintro ⟨r, hr, howner, rfl⟩
    rcases howner with ha | hb
    · cases hfound : o.counterpart b t.rows r with
      | some target =>
          obtain ⟨htmem, htowner, htrest⟩ := counterpart_eq_some.mp hfound
          obtain ⟨r', hr', howner', hrest', -⟩ := exists_of_owner_absorbAll hab h htmem htowner
          exact ⟨r', hr', howner', hrest'.trans htrest⟩
      | none =>
          refine ⟨o.setOwner b r, ?_, o.owner_setOwner b r, o.rest_setOwner b r⟩
          rw [rows_of_absorbAll hab h]
          exact List.mem_filterMap.mpr ⟨r, hr, by simp [given, ha, hfound]⟩
    · obtain ⟨r', hr', howner', hrest', -⟩ := exists_of_owner_absorbAll hab h hr hb
      exact ⟨r', hr', howner', hrest'⟩

/-- Without a merge, the rows are given when none meets a row of `b`. -/
theorem foldlM_update [DecidableEq κ] (hab : a ≠ b) {t₀ : KeyedTable c} {done todo : List ρ}
    (hnodup : (done ++ todo).Nodup) (hgiven : Given (o := o) a t₀ (done ++ todo))
    (ht : t.rows = t₀.rows.filterMap (o.fate m b t₀.rows done)) :
    todo.foldlM (fun t s => t.update (o.setOwner b s)) t =
      if todo.any fun s => (o.counterpart b t₀.rows s).isSome then none else todo.foldlM (o.absorb m b) t := by
  induction todo generalizing done t with
  | nil => rfl
  | cons s todo ih =>
      have hs := hgiven s (List.mem_append_right done List.mem_cons_self)
      have hnot : s ∉ done := fun h => (List.nodup_append.mp hnodup).2.2 s h s List.mem_cons_self rfl
      have hdone : Given (o := o) a t₀ done := fun r hr => hgiven r (List.mem_append_left _ hr)
      obtain ⟨next, hnext, hrows⟩ := absorb_fates (m := m) hab hdone hs.1 hs.2 hnot ht
      have hmem : s ∈ t.rows := ht ▸ List.mem_filterMap.mpr ⟨s, hs.1, fate_next hab hdone hs.1 hs.2 hnot⟩
      have hcounterpart := counterpart_of_fates hab hdone hs.1 hs.2 hnot ht
      have happend : done ++ s :: todo = (done ++ [s]) ++ todo := by simp
      rw [happend] at hnodup hgiven
      rw [List.foldlM_cons, List.foldlM_cons, List.any_cons]
      cases hfound : o.counterpart b t₀.rows s with
      | some target =>
          rw [(update_eq_none_iff hmem (hs.2 ▸ hab)).mpr ⟨target, hcounterpart.trans hfound⟩]
          rfl
      | none =>
          have hupdate : t.update (o.setOwner b s) = some next := by
            unfold absorb at hnext
            rwa [hcounterpart, hfound] at hnext
          rw [hupdate, hnext]
          exact ih hnodup hgiven hrows

/-- A merge that does nothing. -/
def Merge.none (c : Columns ρ κ) : Merge c := ⟨false, fun _ r => r, fun _ _ => ⟨rfl, rfl⟩⟩

theorem moveAll_eq [DecidableEq κ] (hab : a ≠ b) : o.moveAll a b t =
    if (t.rows.filter fun r => o.owner r = a).any fun s => (o.counterpart b t.rows s).isSome then none
    else o.absorbAll (Merge.none c) a b t := by
  have hsources : ([] ++ t.rows.filter fun r => o.owner r = a).Nodup := t.pks.of_map.filter _
  have hstart : t.rows = t.rows.filterMap (o.fate (Merge.none c) b t.rows []) := by
    have hid : ∀ r ∈ t.rows, o.fate (Merge.none c) b t.rows [] r = some r := fun r _ => by simp [fate]
    rw [List.filterMap_congr hid, List.filterMap_some]
  exact foldlM_update hab hsources (fun s hs => by simpa using hs) hstart

/-- Nothing is left to `a` where no merge was needed. -/
theorem moveAll_moveAll [DecidableEq κ] (hab : a ≠ b) (h : o.moveAll a b t = some t') : o.moveAll a b t' = some t' := by
  rw [moveAll_eq hab] at h
  split at h
  · cases h
  · rename_i hnone
    have hleft : (t'.rows.filter fun r => o.owner r = a) = [] := by
      rw [List.filter_eq_nil_iff]
      intro r hr howner
      obtain ⟨-, hr₀, target, htarget⟩ := exists_counterpart_of_left hab h hr (of_decide_eq_true howner)
      refine hnone (List.any_eq_true.mpr ⟨r, List.mem_filter.mpr ⟨hr₀, howner⟩, ?_⟩)
      rw [htarget]
      rfl
    rw [moveAll, hleft]
    rfl

end All

end Ownership

end Itou.Lib
