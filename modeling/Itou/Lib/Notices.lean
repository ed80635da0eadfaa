import Itou.Lib.Dates
import Itou.Lib.Runs
import Mathlib.Algebra.GroupWithZero.Nat
import Mathlib.Data.List.Nodup
import Mathlib.Data.List.Perm.Subperm
import Mathlib.Logic.Function.Basic

/-!
# Members that are archived after a notice

One command selects members that are dormant, sends a notice to those that can receive one, and then records when. Another
takes back the notices that no longer stand, and then archives the members that were notified long enough ago, the first
notified first. Each command is one transaction, whose writes appear when it commits, if it does: an error undoes them. What
a command reads comes before, as a step of its own, and anything may happen to the data in between.
-/

namespace Itou.Lib

universe u

namespace DateTime

def addDays (days : Int) (t : DateTime) : DateTime := { t with date := t.date + days }

theorem addDays_lt_addDays {days : Int} {t t' : DateTime} : t.addDays days < t'.addDays days ↔ t < t' := by
  simp only [lt_iff, addDays]
  omega

theorem addDays_addDays (days days' : Int) (t : DateTime) :
    (t.addDays days).addDays days' = t.addDays (days + days') := by
  simp only [addDays, Int.add_assoc]

theorem addDays_le_addDays {days days' : Int} (h : days ≤ days') (t : DateTime) :
    t.addDays days ≤ t.addDays days' := by
  refine not_lt.mp fun hlt => ?_
  simp only [lt_iff, addDays] at hlt
  omega

end DateTime

/-- `chosen` is what a query ordered by `le` and limited to `n` rows may return among the candidates. -/
def IsFirst {κ : Type u} [DecidableEq κ] (le : κ → κ → Bool) (n : Nat) (candidates chosen : List κ) : Prop :=
  chosen.Nodup ∧ chosen ⊆ candidates ∧ chosen.length = min n candidates.length ∧
    ∀ k ∈ chosen, ∀ l ∈ candidates, l ∉ chosen → le k l = true

instance {κ : Type u} [DecidableEq κ] (le : κ → κ → Bool) (n : Nat) (candidates chosen : List κ) :
    Decidable (IsFirst le n candidates chosen) :=
  inferInstanceAs (Decidable (_ ∧ (∀ _ ∈ chosen, _) ∧ _ ∧ _))

/-- What the commands read in the data `σ` of the members `κ`. -/
structure Notices (σ κ : Type u) where
  /-- The grace period, and what a run of a command takes at most, in days. -/
  grace : Int
  longest : Int
  /-- At an instant, a member that may be selected. -/
  dormant : σ → DateTime → κ → Bool
  /-- A member that is selected is sent a notice. -/
  shouldSend : σ → κ → Bool
  /-- At an instant, a member whose notice of an earlier instant stands. -/
  stands : σ → DateTime → DateTime → κ → Bool
  /-- The order in which the members are notified. -/
  order : σ → κ → κ → Bool
  /-- The rows that other transactions have locked may be skipped by the archiving. -/
  skipLocked : Bool
  /-- The members that are archived after the others. -/
  last : σ → κ → Bool
  /-- The members that go when they are archived. -/
  leaves : σ → κ → Bool
  /-- The archiving raises when one of its members is this one. -/
  blocked : σ → κ → Bool
  archive : σ → List κ → σ

namespace Notices

variable {σ κ : Type u}

/-! ## The system -/

/-- A member that the first command has selected. -/
structure Selection (σ κ : Type u) where
  user : κ
  selectedAt : DateTime
  data : σ

/-- What the first statement of the second command has found: the notices that stand, and the members of which the other
ones are taken back, and who are locked until the end of the transaction. -/
structure Check (σ κ : Type u) where
  checkedAt : DateTime
  data : σ
  kept : List (κ × DateTime)
  cleared : List κ

structure Archived (σ κ : Type u) where
  user : κ
  notifiedAt : DateTime
  archivedAt : DateTime
  check : Check σ κ

/-- The members with the instant of their notice, as they are committed, the commands that are running, and what has been
done. -/
structure State (σ κ : Type u) where
  now : DateTime
  data : σ
  members : List κ
  notifiedAt : κ → Option DateTime
  notifying : List (DateTime × List κ)
  checking : List (Check σ κ)
  selected : List (Selection σ κ)
  archived : List (Archived σ κ)

inductive Label (σ κ : Type u) where
  | tick (now : DateTime)
  | change (data : σ)
  | join (k : κ)
  | leave (k : κ)
  | clear (k : κ)
  | notify (batch : Nat) (users : List κ)
  | record (i : Nat)
  | reset
  | archive (i batch : Nat) (locked users : List κ)
  | fail (i : Nat)

def State.init (now : DateTime) (data : σ) (members : List κ) : State σ κ :=
  ⟨now, data, members, fun _ => none, [], [], [], []⟩

variable [DecidableEq κ] (L : Notices σ κ)

/-- The members that may be selected. -/
def toNotify (s : State σ κ) : List κ := s.members.filter fun k => L.dormant s.data s.now k && (s.notifiedAt k).isNone

/-- The notices that have been sent. -/
def sent (s : State σ κ) : List (Selection σ κ) := s.selected.filter fun n => L.shouldSend n.data n.user

/-- The notices as the transaction of a check sees them. -/
def seen (s : State σ κ) (check : Check σ κ) (k : κ) : Option DateTime :=
  if k ∈ check.cleared then none else s.notifiedAt k

/-- The members that were notified before the grace period, but those that are locked. -/
def toArchive (s : State σ κ) (check : Check σ κ) (locked : List κ) : List κ :=
  s.members.filter fun k => (seen s check k).any (·.addDays L.grace ≤ s.now) && k ∉ locked

def archiveOrder (s : State σ κ) (k l : κ) : Bool :=
  if L.last s.data k = L.last s.data l then (s.notifiedAt k).any fun t => (s.notifiedAt l).any (t ≤ ·)
  else L.last s.data l

/-- The notices that stand. -/
def kept (s : State σ κ) : List (κ × DateTime) :=
  s.members.filterMap fun k => ((s.notifiedAt k).filter fun t => L.stands s.data s.now t k).map (k, ·)

/-- The members of which the notice does not stand. -/
def cleared (s : State σ κ) : List κ :=
  s.members.filter fun k => (s.notifiedAt k).any fun t => !L.stands s.data s.now t k

def step (s : State σ κ) : Label σ κ → Option (State σ κ)
  | .tick now => if s.now ≤ now then some { s with now } else none
  | .change data => some { s with data }
  | .join k => if k ∈ s.members then none else some { s with members := s.members ++ [k] }
  | .leave k => some { s with
      members := s.members.filter (· ≠ k)
      notifiedAt := Function.update s.notifiedAt k none }
  | .clear k => some { s with notifiedAt := Function.update s.notifiedAt k none }
  | .notify batch users =>
      if IsFirst (L.order s.data) batch (L.toNotify s) users then some { s with
        selected := s.selected ++ users.map (⟨·, s.now, s.data⟩)
        notifying := s.notifying ++ [(s.now, users)] }
      else none
  | .record i =>
      match s.notifying[i]? with
      | none => none
      | some run =>
          -- The members that a check has cleared are locked.
          if s.now < run.1.addDays L.longest ∧ ∀ check ∈ s.checking, ∀ k ∈ run.2, k ∉ check.cleared then some { s with
            notifiedAt := fun k => if k ∈ run.2 ∧ k ∈ s.members then some run.1 else s.notifiedAt k
            notifying := s.notifying.eraseIdx i }
          else none
  | .reset => some { s with checking := s.checking ++ [⟨s.now, s.data, L.kept s, L.cleared s⟩] }
  | .archive i batch locked users =>
      match s.checking[i]? with
      | none => none
      | some check =>
          if s.now < check.checkedAt.addDays L.longest ∧ (L.skipLocked = true ∨ locked = []) ∧
              IsFirst (L.archiveOrder s) batch (L.toArchive s check locked) users ∧
              users.all fun k => !L.blocked s.data k then
            some { s with
              data := L.archive s.data users
              members := s.members.filter fun k => !(k ∈ users && L.leaves s.data k)
              notifiedAt := fun k => if k ∈ users && L.leaves s.data k then none else seen s check k
              checking := s.checking.eraseIdx i
              archived := s.archived ++ users.filterMap fun k => (s.notifiedAt k).map (⟨k, ·, s.now, check⟩) }
          else none
  -- Nothing that the command has done is kept.
  | .fail i => if i < s.checking.length then some { s with checking := s.checking.eraseIdx i } else none

/-! ## What holds in every state -/

/-- A member was selected when it was dormant, and archived after the grace period, when a check had found that the notice
stood. -/
structure Founded (selected : List (Selection σ κ)) (a : Archived σ κ) : Prop where
  selection : ∃ n ∈ selected, n.user = a.user ∧ n.selectedAt = a.notifiedAt ∧
    L.dormant n.data n.selectedAt n.user = true
  grace : a.notifiedAt.addDays L.grace ≤ a.archivedAt
  stands : L.stands a.check.data a.check.checkedAt a.notifiedAt a.user = true
  checked : a.check.checkedAt ≤ a.archivedAt ∧ a.archivedAt < a.check.checkedAt.addDays L.longest

/-- A member is selected before its notice is recorded; a check that is pending has found each notice that was recorded
before it. -/
structure Inv (s : State σ κ) : Prop where
  members : s.members.Nodup
  notified : ∀ k t, s.notifiedAt k = some t → k ∈ s.members ∧ ∃ n ∈ s.selected, n.user = k ∧ n.selectedAt = t
  selected : ∀ n ∈ s.selected, n.selectedAt ≤ s.now ∧ L.dormant n.data n.selectedAt n.user = true
  notifying : ∀ run ∈ s.notifying, ∀ k ∈ run.2, ∃ n ∈ s.selected, n.user = k ∧ n.selectedAt = run.1
  checking : ∀ check ∈ s.checking, check.checkedAt ≤ s.now ∧
    (∀ k t, (k, t) ∈ check.kept → L.stands check.data check.checkedAt t k = true) ∧
    ∀ k t, seen s check k = some t → (k, t) ∈ check.kept ∨ check.checkedAt < t.addDays L.longest
  archived : ∀ a ∈ s.archived, L.Founded s.selected a

variable {L} {s s' : State σ κ} {k : κ}

theorem inv_init {now : DateTime} {data : σ} {members : List κ} (hmembers : members.Nodup) :
    L.Inv (State.init now data members) where
  members := hmembers
  notified := nofun
  selected := nofun
  notifying := nofun
  checking := nofun
  archived := nofun

omit [DecidableEq κ] in
theorem Founded.mono {selected selected' : List (Selection σ κ)} (hsub : selected ⊆ selected') {a : Archived σ κ}
    (h : L.Founded selected a) : L.Founded selected' a :=
  { h with selection := h.selection.imp fun _ hn => ⟨hsub hn.1, hn.2⟩ }

omit [DecidableEq κ] in
theorem mem_sent {n : Selection σ κ} : n ∈ L.sent s ↔ n ∈ s.selected ∧ L.shouldSend n.data n.user = true :=
  List.mem_filter

theorem seen_eq_some {s : State σ κ} {check : Check σ κ} {k : κ} {t : DateTime} :
    seen s check k = some t ↔ k ∉ check.cleared ∧ s.notifiedAt k = some t := by
  unfold seen
  split
  · rename_i hk
    simp [hk]
  · rename_i hk
    simp [hk]

/-- Members may join, and notices be taken back. -/
theorem Inv.forget (h : L.Inv s) {members : List κ} {notifiedAt : κ → Option DateTime} (hmembers : members.Nodup)
    (hsub : ∀ k t, notifiedAt k = some t → s.notifiedAt k = some t ∧ k ∈ members) :
    L.Inv { s with members, notifiedAt } where
  members := hmembers
  notified := fun k t hk => ⟨(hsub k t hk).2, (h.notified k t (hsub k t hk).1).2⟩
  selected := h.selected
  notifying := h.notifying
  checking := fun check hcheck =>
    have hfound := h.checking check hcheck
    ⟨hfound.1, hfound.2.1, fun k t hk => hfound.2.2 k t
      (seen_eq_some.mpr ⟨(seen_eq_some.mp hk).1, (hsub k t (seen_eq_some.mp hk).2).1⟩)⟩
  archived := h.archived

theorem Inv.tick (h : L.Inv s) {now : DateTime} (hnow : s.now ≤ now) : L.Inv { s with now } where
  members := h.members
  notified := h.notified
  selected := fun n hn => ⟨(h.selected n hn).1.trans hnow, (h.selected n hn).2⟩
  notifying := h.notifying
  checking := fun check hcheck =>
    ⟨(h.checking check hcheck).1.trans hnow, (h.checking check hcheck).2⟩
  archived := h.archived

theorem Inv.change (h : L.Inv s) (data : σ) : L.Inv { s with data } := { h with }

theorem update_none_eq_some {f : κ → Option DateTime} {k l : κ} {t : DateTime}
    (h : Function.update f k none l = some t) : l ≠ k ∧ f l = some t := by
  rw [Function.update_apply] at h
  split at h
  · cases h
  · rename_i hne
    exact ⟨hne, h⟩

theorem Inv.notify (h : L.Inv s) {users : List κ} (husers : users ⊆ L.toNotify s) :
    L.Inv { s with
      selected := s.selected ++ users.map (⟨·, s.now, s.data⟩)
      notifying := s.notifying ++ [(s.now, users)] } where
  members := h.members
  notified := fun k t hk =>
    ⟨(h.notified k t hk).1, (h.notified k t hk).2.imp fun _ hn => ⟨List.mem_append_left _ hn.1, hn.2⟩⟩
  selected := fun n hn => by
    rcases List.mem_append.mp hn with hn | hn
    · exact h.selected n hn
    · obtain ⟨k, hk, rfl⟩ := List.mem_map.mp hn
      have hdormant := (List.mem_filter.mp (husers hk)).2
      exact ⟨le_rfl, (Bool.and_eq_true_iff.mp hdormant).1⟩
  notifying := fun run hrun k hk => by
    rcases List.mem_append.mp hrun with hrun | hrun
    · exact (h.notifying run hrun k hk).imp fun _ hn => ⟨List.mem_append_left _ hn.1, hn.2⟩
    · rw [List.mem_singleton.mp hrun] at hk ⊢
      exact ⟨_, List.mem_append_right _ (List.mem_map_of_mem hk), rfl, rfl⟩
  checking := h.checking
  archived := fun a ha => (h.archived a ha).mono (List.subset_append_left ..)

theorem Inv.record (h : L.Inv s) {i : Nat} {run : DateTime × List κ} (hrun : s.notifying[i]? = some run)
    (hlongest : s.now < run.1.addDays L.longest) :
    L.Inv { s with
      notifiedAt := fun k => if k ∈ run.2 ∧ k ∈ s.members then some run.1 else s.notifiedAt k
      notifying := s.notifying.eraseIdx i } where
  members := h.members
  notified := fun k t hk => by
    simp only at hk
    split at hk
    · rename_i hmem
      obtain rfl := Option.some.inj hk
      exact ⟨hmem.2, h.notifying run (List.mem_of_getElem? hrun) k hmem.1⟩
    · exact h.notified k t hk
  selected := h.selected
  notifying := fun run' hrun' => h.notifying run' (List.mem_of_mem_eraseIdx hrun')
  checking := fun check hcheck => by
    obtain ⟨hnow, hstands, hfound⟩ := h.checking check hcheck
    refine ⟨hnow, hstands, fun k t hk => ?_⟩
    obtain ⟨hcleared, hk⟩ := seen_eq_some.mp hk
    simp only at hk
    split at hk
    · obtain rfl := Option.some.inj hk
      exact Or.inr (hnow.trans_lt hlongest)
    · exact hfound k t (seen_eq_some.mpr ⟨hcleared, hk⟩)
  archived := h.archived

omit [DecidableEq κ] in
theorem mem_kept {t : DateTime} : (k, t) ∈ L.kept s ↔
    k ∈ s.members ∧ s.notifiedAt k = some t ∧ L.stands s.data s.now t k = true := by
  simp only [kept, List.mem_filterMap, Option.map_eq_some_iff, Option.filter_eq_some_iff, Prod.mk.injEq]
  constructor
  · rintro ⟨l, hl, t', ⟨hnotified, hstands⟩, rfl, rfl⟩
    exact ⟨hl, hnotified, hstands⟩
  · rintro ⟨hk, hnotified, hstands⟩
    exact ⟨k, hk, t, ⟨hnotified, hstands⟩, rfl, rfl⟩

omit [DecidableEq κ] in
theorem mem_cleared : k ∈ L.cleared s ↔
    k ∈ s.members ∧ ∃ t, s.notifiedAt k = some t ∧ L.stands s.data s.now t k = false := by
  simp only [cleared, List.mem_filter, Option.any_eq_true, Bool.not_eq_true']

theorem Inv.reset (h : L.Inv s) :
    L.Inv { s with checking := s.checking ++ [⟨s.now, s.data, L.kept s, L.cleared s⟩] } where
  members := h.members
  notified := h.notified
  selected := h.selected
  notifying := h.notifying
  checking := fun check hcheck => by
    rcases List.mem_append.mp hcheck with hcheck | hcheck
    · exact h.checking check hcheck
    · obtain rfl := List.mem_singleton.mp hcheck
      refine ⟨le_rfl, fun k t hk => (mem_kept.mp hk).2.2, fun k t hk => Or.inl ?_⟩
      obtain ⟨hcleared, hk⟩ := seen_eq_some.mp hk
      have hmem : k ∈ s.members := (h.notified k t hk).1
      refine mem_kept.mpr ⟨hmem, hk, ?_⟩
      by_contra hstands
      exact hcleared (mem_cleared.mpr ⟨hmem, t, hk, Bool.not_eq_true _ ▸ hstands⟩)
  archived := h.archived

theorem Inv.fail (h : L.Inv s) (i : Nat) : L.Inv { s with checking := s.checking.eraseIdx i } where
  members := h.members
  notified := h.notified
  selected := h.selected
  notifying := h.notifying
  checking := fun check hcheck => h.checking check (List.mem_of_mem_eraseIdx hcheck)
  archived := h.archived

theorem mem_toArchive {check : Check σ κ} {locked : List κ} (hmem : k ∈ L.toArchive s check locked) :
    k ∈ s.members ∧ ∃ t, seen s check k = some t ∧ t.addDays L.grace ≤ s.now := by
  obtain ⟨hk, h⟩ := List.mem_filter.mp hmem
  obtain ⟨t, ht, hdue⟩ := (Option.any_eq_true _ _).mp (Bool.and_eq_true_iff.mp h).1
  exact ⟨hk, t, ht, of_decide_eq_true hdue⟩

/-- A notice that was recorded after a check is too recent. -/
theorem Inv.founded (hgrace : L.longest + L.longest ≤ L.grace) (h : L.Inv s) {check : Check σ κ}
    (hcheck : check ∈ s.checking) (hlongest : s.now < check.checkedAt.addDays L.longest) {t : DateTime}
    (hk : seen s check k = some t) (hdue : t.addDays L.grace ≤ s.now) :
    L.Founded s.selected ⟨k, t, s.now, check⟩ := by
  obtain ⟨hnow, hstands, hfound⟩ := h.checking check hcheck
  obtain ⟨n, hn, huser, hselected⟩ := (h.notified k t (seen_eq_some.mp hk).2).2
  refine ⟨⟨n, hn, huser, hselected, (h.selected n hn).2⟩, hdue, ?_, hnow, hlongest⟩
  rcases hfound k t hk with hkept | hlate
  · exact hstands k t hkept
  · refine absurd hdue (not_le.mpr ?_)
    calc s.now < check.checkedAt.addDays L.longest := hlongest
      _ < (t.addDays L.longest).addDays L.longest := DateTime.addDays_lt_addDays.mpr hlate
      _ = t.addDays (L.longest + L.longest) := DateTime.addDays_addDays ..
      _ ≤ t.addDays L.grace := DateTime.addDays_le_addDays hgrace t

theorem Inv.archive (hgrace : L.longest + L.longest ≤ L.grace) (h : L.Inv s) {i : Nat} {locked users : List κ}
    {check : Check σ κ} (hcheck : s.checking[i]? = some check)
    (hlongest : s.now < check.checkedAt.addDays L.longest) (husers : users ⊆ L.toArchive s check locked) :
    L.Inv { s with
      data := L.archive s.data users
      members := s.members.filter fun k => !(k ∈ users && L.leaves s.data k)
      notifiedAt := fun k => if k ∈ users && L.leaves s.data k then none else seen s check k
      checking := s.checking.eraseIdx i
      archived := s.archived ++ users.filterMap fun k => (s.notifiedAt k).map (⟨k, ·, s.now, check⟩) } := by
  have hinv : L.Inv { s with
      data := L.archive s.data users
      members := s.members.filter fun k => !(k ∈ users && L.leaves s.data k)
      notifiedAt := fun k => if k ∈ users && L.leaves s.data k then none else seen s check k } := by
    refine (h.change (L.archive s.data users)).forget (h.members.filter _) fun k t hk => ?_
    split at hk
    · cases hk
    · rename_i hstays
      have hnotified := (seen_eq_some.mp hk).2
      refine ⟨hnotified, List.mem_filter.mpr ⟨(h.notified k t hnotified).1, ?_⟩⟩
      rw [Bool.not_eq_true _ |>.mp hstays]
      rfl
  refine { hinv with
    checking := fun check' hcheck' => hinv.checking check' (List.mem_of_mem_eraseIdx hcheck')
    archived := fun a ha => ?_ }
  rcases List.mem_append.mp ha with ha | ha
  · exact h.archived a ha
  · obtain ⟨k, hk, ha⟩ := List.mem_filterMap.mp ha
    obtain ⟨t, ht, rfl⟩ := Option.map_eq_some_iff.mp ha
    obtain ⟨-, t', hseen, hdue⟩ := mem_toArchive (husers hk)
    obtain rfl : t' = t := Option.some.inj ((seen_eq_some.mp hseen).2.symm.trans ht)
    exact h.founded hgrace (List.mem_of_getElem? hcheck) hlongest hseen hdue

theorem Inv.step (hgrace : L.longest + L.longest ≤ L.grace) (h : L.Inv s) {label : Label σ κ}
    (hstep : L.step s label = some s') : L.Inv s' := by
  cases label with
  | tick now =>
      simp only [Notices.step, Option.ite_none_right_eq_some, Option.some.injEq] at hstep
      obtain ⟨hnow, rfl⟩ := hstep
      exact h.tick hnow
  | change data =>
      cases hstep
      exact h.change data
  | join k =>
      simp only [Notices.step, Option.ite_none_left_eq_some, Option.some.injEq] at hstep
      obtain ⟨hk, rfl⟩ := hstep
      refine h.forget (List.nodup_append.mpr ⟨h.members, List.nodup_singleton k, fun l hl m hm => ?_⟩)
        fun l t hl => ⟨hl, List.mem_append_left _ (h.notified l t hl).1⟩
      rw [List.mem_singleton.mp hm]
      exact fun heq => hk (heq ▸ hl)
  | leave k =>
      cases hstep
      refine h.forget (h.members.filter _) fun l t hl => ?_
      obtain ⟨hne, hl⟩ := update_none_eq_some hl
      exact ⟨hl, List.mem_filter.mpr ⟨(h.notified l t hl).1, decide_eq_true hne⟩⟩
  | clear k =>
      cases hstep
      refine h.forget h.members fun l t hl => ?_
      obtain ⟨-, hl⟩ := update_none_eq_some hl
      exact ⟨hl, (h.notified l t hl).1⟩
  | notify batch users =>
      simp only [Notices.step, Option.ite_none_right_eq_some, Option.some.injEq] at hstep
      obtain ⟨hfirst, rfl⟩ := hstep
      exact h.notify hfirst.2.1
  | record i =>
      simp only [Notices.step] at hstep
      split at hstep
      · cases hstep
      · rename_i run hrun
        simp only [Option.ite_none_right_eq_some, Option.some.injEq] at hstep
        obtain ⟨⟨hlongest, -⟩, rfl⟩ := hstep
        exact h.record hrun hlongest
  | reset =>
      cases hstep
      exact h.reset
  | archive i batch locked users =>
      simp only [Notices.step] at hstep
      split at hstep
      · cases hstep
      · rename_i check hcheck
        simp only [Option.ite_none_right_eq_some, Option.some.injEq] at hstep
        obtain ⟨⟨hlongest, -, hfirst, -⟩, rfl⟩ := hstep
        exact h.archive hgrace hcheck hlongest hfirst.2.1
  | fail i =>
      simp only [Notices.step, Option.ite_none_right_eq_some, Option.some.injEq] at hstep
      obtain ⟨-, rfl⟩ := hstep
      exact h.fail i

/-- In every state that a run reaches, whoever was archived had been selected when dormant. -/
theorem Inv.run (hgrace : L.longest + L.longest ≤ L.grace) (h : L.Inv s) {labels : List (Label σ κ)}
    (hrun : run L.step s labels = some s') : L.Inv s' :=
  invariant_of_run (fun _ _ _ h hstep => h.step hgrace hstep) h hrun

/-! ## Waiting -/

/-- The size of the batch that an archiving takes. -/
def Label.batch : Label σ κ → Nat
  | .archive _ batch _ _ => batch
  | _ => 0

/-- The member has had its notice of the instant `t` since before the grace period, and has neither left nor been
archived. -/
structure Waits (k : κ) (t : DateTime) (s : State σ κ) : Prop where
  member : k ∈ s.members
  notified : s.notifiedAt k = some t
  due : t.addDays L.grace ≤ s.now

instance (k : κ) (t : DateTime) : DecidablePred (L.Waits k t) := fun s =>
  decidable_of_iff (k ∈ s.members ∧ s.notifiedAt k = some t ∧ t.addDays L.grace ≤ s.now)
    ⟨fun h => ⟨h.1, h.2.1, h.2.2⟩, fun h => ⟨h.1, h.2, h.3⟩⟩

/-- The others that were not notified later. -/
def ahead (k : κ) (t : DateTime) (s : State σ κ) : List κ :=
  s.members.filter fun l => l ≠ k && (s.notifiedAt l).any (· ≤ t)

theorem mem_ahead {k l : κ} {t : DateTime} : l ∈ ahead k t s ↔
    l ∈ s.members ∧ l ≠ k ∧ (s.notifiedAt l).any (· ≤ t) = true := by
  simp only [ahead, List.mem_filter, Bool.and_eq_true, decide_eq_true_eq, ne_eq]

/-- When members only leave, and notices are only taken back or recorded later, no more members are ahead. -/
theorem length_ahead_le {k : κ} {t : DateTime} (hnodup : s'.members.Nodup)
    (h : ∀ l ∈ s'.members, (s'.notifiedAt l).any (· ≤ t) = true →
      l ∈ s.members ∧ (s.notifiedAt l).any (· ≤ t) = true) :
    (ahead k t s').length ≤ (ahead k t s).length := by
  refine (List.subperm_of_subset (hnodup.filter _) fun l hl => ?_).length_le
  obtain ⟨hmem, hne, hnotified⟩ := mem_ahead.mp hl
  exact mem_ahead.mpr ⟨(h l hmem hnotified).1, hne, (h l hmem hnotified).2⟩

theorem Waits.mem_toArchive {t : DateTime} (hwaits : L.Waits k t s) {check : Check σ κ} (hcleared : k ∉ check.cleared) :
    k ∈ L.toArchive s check [] := by
  refine List.mem_filter.mpr ⟨hwaits.member, ?_⟩
  rw [seen_eq_some.mpr ⟨hcleared, hwaits.notified⟩]
  exact Bool.and_eq_true_iff.mpr ⟨decide_eq_true hwaits.due, rfl⟩

/-- An archiving that leaves out a member that is due takes as many of those ahead as its batch allows. -/
theorem archive_ahead {t : DateTime} (hlast : ∀ data l, L.last data l = false)
    (hleaves : ∀ data l, L.leaves data l = true) (hwaits : L.Waits k t s) {check : Check σ κ}
    (hcleared : k ∉ check.cleared) {batch : Nat} {users : List κ}
    (hfirst : IsFirst (L.archiveOrder s) batch (L.toArchive s check []) users) (hk : k ∉ users)
    (hmembers : s'.members = s.members.filter fun l => !(l ∈ users && L.leaves s.data l))
    (hnotifiedAt : s'.notifiedAt = fun l => if l ∈ users && L.leaves s.data l then none else seen s check l)
    (hnodup : s.members.Nodup) : batch + (ahead k t s').length ≤ (ahead k t s).length := by
  obtain ⟨husers, hsub, hlength, horder⟩ := hfirst
  have hcandidate : k ∈ L.toArchive s check [] := hwaits.mem_toArchive hcleared
  -- One candidate is left out, so the batch is full.
  have hbatch : batch = users.length := by
    have hlt : users.length < (L.toArchive s check []).length := by
      have := (List.subperm_of_subset (List.nodup_cons.mpr ⟨hk, husers⟩)
        (List.cons_subset.mpr ⟨hcandidate, hsub⟩)).length_le
      exact this
    omega
  have hdisjoint : (users ++ ahead k t s').Nodup := by
    refine List.nodup_append.mpr ⟨husers, (hmembers ▸ hnodup.filter _ : s'.members.Nodup).filter _,
      fun l hl m hm heq => ?_⟩
    subst heq
    have hm := (mem_ahead.mp hm).1
    rw [hmembers, List.mem_filter, hleaves, Bool.and_true, decide_eq_true hl] at hm
    exact absurd hm.2 (by decide)
  have hsubset : users ++ ahead k t s' ⊆ ahead k t s := by
    intro l hl
    rcases List.mem_append.mp hl with hl | hl
    · have hle := horder l hl k hcandidate hk
      rw [archiveOrder, hlast, hlast, if_pos rfl, hwaits.notified] at hle
      refine mem_ahead.mpr ⟨(List.mem_filter.mp (hsub hl)).1, fun heq => hk (heq ▸ hl), ?_⟩
      exact hle
    · obtain ⟨hmem, hne, hnotified⟩ := mem_ahead.mp hl
      rw [hmembers] at hmem
      rw [hnotifiedAt] at hnotified
      refine mem_ahead.mpr ⟨(List.mem_filter.mp hmem).1, hne, ?_⟩
      simp only at hnotified
      split at hnotified
      · cases hnotified
      · obtain ⟨t', ht', hle⟩ := (Option.any_eq_true _ _).mp hnotified
        exact (Option.any_eq_true _ _).mpr ⟨t', (seen_eq_some.mp ht').2, hle⟩
  rw [hbatch, ← List.length_append]
  exact (List.subperm_of_subset hdisjoint hsubset).length_le

/-- While a blocked member is the first to be archived, an archiving that takes anybody raises. -/
theorem archive_eq_none {t : DateTime} (hlocked : L.skipLocked = false) (hlast : ∀ data l, L.last data l = false)
    (hwaits : L.Waits k t s) (hahead : ahead k t s = []) (hblocked : L.blocked s.data k = true) {i : Nat}
    (hcleared : ∀ check, s.checking[i]? = some check → k ∉ check.cleared) (batch : Nat) (locked users : List κ) :
    L.step s (.archive i (batch + 1) locked users) = none := by
  simp only [Notices.step]
  split
  · rfl
  · rename_i check hcheck
    refine if_neg ?_
    rw [hlocked]
    rintro ⟨-, hskip, hfirst, hall⟩
    obtain rfl : locked = [] := hskip.resolve_left Bool.false_ne_true
    have hk : k ∉ users := fun hk => by
      have hfree := List.all_eq_true.mp hall k hk
      rw [hblocked] at hfree
      exact absurd hfree (by decide)
    have hcandidate := hwaits.mem_toArchive (hcleared check hcheck)
    have hlength : users.length = min (batch + 1) (L.toArchive s check []).length := hfirst.2.2.1
    obtain ⟨l, hl⟩ : ∃ l, l ∈ users := by
      refine List.exists_mem_of_length_pos ?_
      have := List.length_pos_of_mem hcandidate
      omega
    -- Whoever goes before is ahead, and nobody is.
    have hle := hfirst.2.2.2 l hl k hcandidate hk
    rw [archiveOrder, hlast, hlast, if_pos rfl, hwaits.notified] at hle
    have hmem : l ∈ ahead k t s :=
      mem_ahead.mpr ⟨(List.mem_filter.mp (hfirst.2.1 hl)).1, fun heq => hk (heq ▸ hl), hle⟩
    rw [hahead] at hmem
    cases hmem

/-- What a step does to those that are ahead of a member that still waits after it. -/
theorem step_ahead {t : DateTime} (hgrace : L.longest ≤ L.grace) (hlocked : L.skipLocked = false)
    (hlast : ∀ data l, L.last data l = false) (hleaves : ∀ data l, L.leaves data l = true) (h : L.Inv s)
    (h' : L.Inv s') {label : Label σ κ} (hstep : L.step s label = some s') (hwaits : L.Waits k t s)
    (hwaits' : L.Waits k t s') :
    label.batch + (ahead k t s').length ≤ (ahead k t s).length := by
  cases label with
  | tick now =>
      simp only [Notices.step, Option.ite_none_right_eq_some, Option.some.injEq] at hstep
      obtain ⟨-, rfl⟩ := hstep
      exact (Nat.zero_add _).le
  | change data =>
      cases hstep
      exact (Nat.zero_add _).le
  | join l =>
      simp only [Notices.step, Option.ite_none_left_eq_some, Option.some.injEq] at hstep
      obtain ⟨-, rfl⟩ := hstep
      refine (Nat.zero_add _).le.trans (length_ahead_le h'.members fun m _ hnotified => ⟨?_, hnotified⟩)
      obtain ⟨t', ht', -⟩ := (Option.any_eq_true _ _).mp hnotified
      exact (h.notified m t' ht').1
  | leave l =>
      cases hstep
      refine (Nat.zero_add _).le.trans (length_ahead_le h'.members fun m hm hnotified => ?_)
      obtain ⟨t', ht', hle⟩ := (Option.any_eq_true _ _).mp hnotified
      obtain ⟨-, ht'⟩ := update_none_eq_some ht'
      exact ⟨(List.mem_filter.mp hm).1, (Option.any_eq_true _ _).mpr ⟨t', ht', hle⟩⟩
  | clear l =>
      cases hstep
      refine (Nat.zero_add _).le.trans (length_ahead_le h'.members fun m hm hnotified => ⟨hm, ?_⟩)
      obtain ⟨t', ht', hle⟩ := (Option.any_eq_true _ _).mp hnotified
      exact (Option.any_eq_true _ _).mpr ⟨t', (update_none_eq_some ht').2, hle⟩
  | notify batch users =>
      simp only [Notices.step, Option.ite_none_right_eq_some, Option.some.injEq] at hstep
      obtain ⟨-, rfl⟩ := hstep
      exact (Nat.zero_add _).le
  | record i =>
      simp only [Notices.step] at hstep
      split at hstep
      · cases hstep
      · rename_i run hrun
        simp only [Option.ite_none_right_eq_some, Option.some.injEq] at hstep
        obtain ⟨⟨hlongest, -⟩, rfl⟩ := hstep
        refine (Nat.zero_add _).le.trans (length_ahead_le h'.members fun m hm hnotified => ⟨hm, ?_⟩)
        simp only at hnotified
        split at hnotified
        · -- The notice that is recorded is more recent than the grace period.
          refine absurd (of_decide_eq_true hnotified) (not_le.mpr ?_)
          have hlt : t.addDays L.grace < run.1.addDays L.grace := calc
            t.addDays L.grace ≤ s.now := hwaits.due
            _ < run.1.addDays L.longest := hlongest
            _ ≤ run.1.addDays L.grace := DateTime.addDays_le_addDays hgrace _
          exact DateTime.addDays_lt_addDays.mp hlt
        · exact hnotified
  | reset =>
      cases hstep
      exact (Nat.zero_add _).le
  | archive i batch locked users =>
      simp only [Notices.step] at hstep
      split at hstep
      · cases hstep
      · simp only [Option.ite_none_right_eq_some, Option.some.injEq, hlocked, Bool.false_eq_true, false_or] at hstep
        obtain ⟨⟨-, rfl, hfirst, -⟩, rfl⟩ := hstep
        have hmember := (List.mem_filter.mp hwaits'.member).2
        have hk : k ∉ users := by
          intro hk
          rw [hleaves, Bool.and_true, decide_eq_true hk] at hmember
          exact absurd hmember (by decide)
        have hnotified := hwaits'.notified
        simp only [hk, decide_false, Bool.false_and, Bool.false_eq_true, if_false] at hnotified
        exact archive_ahead hlast hleaves hwaits (seen_eq_some.mp hnotified).1 hfirst hk rfl rfl h.members
  | fail i =>
      simp only [Notices.step, Option.ite_none_right_eq_some, Option.some.injEq] at hstep
      obtain ⟨-, rfl⟩ := hstep
      exact (Nat.zero_add _).le

/-- While a member waits, the archivings take no more than those that were ahead of it. -/
theorem sum_batch_le {t : DateTime} (hgrace : L.longest + L.longest ≤ L.grace) (hlongest : L.longest ≤ L.grace)
    (hlocked : L.skipLocked = false) (hlast : ∀ data l, L.last data l = false)
    (hleaves : ∀ data l, L.leaves data l = true) {labels : List (Label σ κ)} (h : L.Inv s)
    (hrun : run L.step s labels = some s') (hwaits : AllStates L.step (L.Waits k t) s labels) :
    (labels.map Label.batch).sum + (ahead k t s').length ≤ (ahead k t s).length := by
  induction labels generalizing s with
  | nil =>
      cases hrun
      exact (Nat.zero_add _).le
  | cons label labels ih =>
      obtain ⟨s₁, hstep, hrun⟩ := Option.bind_eq_some_iff.mp hrun
      obtain ⟨hwaits₀, hwaits⟩ := hwaits
      simp only [hstep] at hwaits
      have h₁ := h.step hgrace hstep
      have hhead := step_ahead hlongest hlocked hlast hleaves h h₁ hstep hwaits₀ hwaits.head
      have htail := ih h₁ hrun hwaits
      rw [List.map_cons, List.sum_cons]
      omega

end Notices

end Itou.Lib
