import Itou.RdvInsertion.Webhook

/-!
# Theorems on the webhook of RDV-Insertion
-/

namespace Itou.RdvInsertion

open Itou.Lib LockedUpserts

variable (b : Builtins)

/-! ## The lock of the appointment -/

theorem guarded_participations {held : List Lock} {appointment : Int} (h : Lock.appointment appointment ∈ held)
    (data : Json) (requests : List InvitationRequest) :
    Guarded held (participationStatements b data appointment requests) := by
  induction requests generalizing held with
  | nil => trivial
  | cons r requests ih =>
      simp only [participationStatements, List.map_cons]
      cases participationDefaults b data r.rdvInsertionUserId with
      | none => exact ih h
      | some defaults => exact ⟨fun _ => h, ih (List.mem_cons_of_mem _ h)⟩

theorem guarded_appointmentStatements (t : Tables) (rdvsCompanyId : Option Int) (requests : List InvitationRequest)
    (data : Json) (location : Option Int) (held : List Lock) :
    Guarded held (appointmentStatements b t rdvsCompanyId requests data location) := by
  unfold appointmentStatements
  cases appointmentOf b t rdvsCompanyId location data with
  | none => trivial
  | some a => exact ⟨nofun, guarded_participations b List.mem_cons_self data requests⟩

theorem guarded_appointmentProgram (t : Tables) (rdvsCompanyId : Option Int) (requests : List InvitationRequest)
    (data : Json) : Guarded [] (appointmentProgram b t rdvsCompanyId requests data) := by
  unfold appointmentProgram
  rcases locationOf b data with _ | _ | l
  · trivial
  · exact guarded_appointmentStatements b t rdvsCompanyId requests data _ _
  · exact ⟨nofun, guarded_appointmentStatements b t rdvsCompanyId requests data _ _⟩

theorem guarded_invitationProgram (id : Int) (data : Json) : Guarded [] (invitationProgram b id data) := by
  unfold invitationProgram
  generalize hst : (do
    let status ← getInvitationStatus data
    let deliveredAt ← dateOrNone b (← data.get? "delivered_at")
    return invitationStatement id status deliveredAt) = st?
  cases st? with
  | none => trivial
  | some st =>
      refine ⟨fun hacquires => ?_, trivial⟩
      simp only [Option.bind_eq_bind, Option.bind_eq_some_iff, Option.pure_def, Option.some.injEq] at hst
      obtain ⟨_, _, _, _, _, _, rfl⟩ := hst
      exact nomatch hacquires

/-- An event is for an appointment or for an invitation. -/
theorem program_cases {t : Tables} {event : Json} {todo : List (Option Statement)} (h : program b t event = some todo) :
    (∃ rdvsCompanyId requests data, todo = appointmentProgram b t rdvsCompanyId requests data) ∨
      ∃ id data, todo = invitationProgram b id data := by
  simp only [program, Option.bind_eq_bind, Option.bind_eq_some_iff] at h
  obtain ⟨_, _, _, _, model, _, h⟩ := h
  split at h
  · simp only [Option.bind_eq_some_iff] at h
    obtain ⟨data, _, ⟨rdvsCompanyId, requests⟩, _, h⟩ := h
    simp only at h
    split at h
    · exact nomatch h
    · exact .inl ⟨rdvsCompanyId, requests, data, (Option.some.inj h).symm⟩
  · split at h
    · simp only [Option.bind_eq_some_iff] at h
      obtain ⟨data, _, _, _, _, _, id, _, h⟩ := h
      exact .inr ⟨id, data, (Option.some.inj h).symm⟩
    · exact nomatch h

theorem guarded_program {t : Tables} {event : Json} {todo : List (Option Statement)}
    (h : program b t event = some todo) : Guarded [] todo := by
  rcases program_cases b h with ⟨rdvsCompanyId, requests, data, rfl⟩ | ⟨id, data, rfl⟩
  · exact guarded_appointmentProgram b t rdvsCompanyId requests data
  · exact guarded_invitationProgram b id data

/-! ## The same event again -/

/-- The columns that several `defaults` set in the end. -/
def Participation.set (p : Participation) (userId : Option Int) (defaults : Option (ParticipationStatus × Option Int)) :
    Participation :=
  { p with
    rdvInsertionUserId := userId.getD p.rdvInsertionUserId
    status := (defaults.map Prod.fst).getD p.status
    rdvInsertionId := (defaults.map Prod.snd).getD p.rdvInsertionId }

theorem Participation.set_set (p : Participation) (userId : Option Int)
    (defaults : Option (ParticipationStatus × Option Int)) :
    (p.set userId defaults).set userId defaults = p.set userId defaults := by
  cases userId <;> cases defaults <;> rfl

theorem Participation.set_assign (p : Participation) (userId : Int) (userId' : Option Int)
    (defaults defaults' : Option (ParticipationStatus × Option Int)) :
    (p.assign userId defaults).set userId' defaults' = p.set (userId'.or (some userId)) (defaults'.or defaults) := by
  cases userId' <;> cases defaults' <;> rfl

theorem effectAt_participations (data : Json) (jobSeeker : Nat) (appointment : Int)
    (requests : List InvitationRequest) :
    ∃ userId defaults, ∀ p : Participation,
      effectAt (.participation jobSeeker appointment) (participationStatements b data appointment requests)
        (some (.participation p)) = some (.participation (p.set userId defaults)) := by
  induction requests with
  | nil => exact ⟨none, none, fun _ => rfl⟩
  | cons r requests ih =>
      obtain ⟨userId, defaults, ih⟩ := ih
      simp only [participationStatements, List.map_cons] at ih ⊢
      cases participationDefaults b data r.rdvInsertionUserId with
      | none => exact ⟨userId, defaults, ih⟩
      | some defaults' =>
          by_cases hr : r.jobSeeker = jobSeeker
          · refine ⟨userId.or (some r.rdvInsertionUserId), defaults.or defaults', fun p => ?_⟩
            simp only [effectAt, Option.map_some, participationStatement, hr, if_true]
            rw [ih, Participation.set_assign]
          · refine ⟨userId, defaults, fun p => ?_⟩
            rw [← ih p]
            simp [effectAt, participationStatement, hr]

/-- A participation that is missing ends as one that had its default columns. -/
theorem effectAt_participations_none (data : Json) (jobSeeker : Nat) (appointment : Int)
    (requests : List InvitationRequest) :
    effectAt (.participation jobSeeker appointment) (participationStatements b data appointment requests) none = none ∨
      ∃ p : Participation,
        effectAt (.participation jobSeeker appointment) (participationStatements b data appointment requests) none =
          effectAt (.participation jobSeeker appointment) (participationStatements b data appointment requests)
            (some (.participation p)) := by
  induction requests with
  | nil => exact .inl rfl
  | cons r requests ih =>
      simp only [participationStatements, List.map_cons] at ih ⊢
      cases participationDefaults b data r.rdvInsertionUserId with
      | none => exact ih
      | some defaults =>
          by_cases hr : r.jobSeeker = jobSeeker
          · refine .inr ⟨⟨jobSeeker, appointment, .unknown, r.rdvInsertionUserId, none⟩, ?_⟩
            simp only [effectAt, Option.map_some, participationStatement, hr, if_true]
          · simpa [effectAt, participationStatement, hr] using ih

theorem participation_again (data : Json) (appointment' : Int) (requests : List InvitationRequest) {jobSeeker : Nat}
    {appointment : Int} {row : Option Row} {row' : Row}
    (hrow : ∀ r ∈ row, r.key = .participation jobSeeker appointment)
    (h : effectAt (.participation jobSeeker appointment) (participationStatements b data appointment' requests) row =
      some row') :
    effectAt (.participation jobSeeker appointment) (participationStatements b data appointment' requests) (some row') =
      some row' := by
  by_cases happointment : appointment' = appointment
  · subst happointment
    obtain ⟨userId, defaults, hset⟩ := effectAt_participations b data jobSeeker appointment' requests
    have hp : ∃ p : Participation, effectAt (.participation jobSeeker appointment')
        (participationStatements b data appointment' requests) (some (.participation p)) = some row' := by
      cases row with
      | none =>
          rcases effectAt_participations_none b data jobSeeker appointment' requests with hnone | ⟨p, hp⟩
          · rw [hnone] at h
            cases h
          · exact ⟨p, hp ▸ h⟩
      | some r =>
          have hkey := hrow r rfl
          cases r with
          | participation p => exact ⟨p, h⟩
          | location _ => cases hkey
          | appointment _ => cases hkey
          | invitation _ => cases hkey
    obtain ⟨p, hp⟩ := hp
    obtain rfl := Option.some.inj ((hset p).symm.trans hp)
    rw [hset, Participation.set_set]
  · have hne : ∀ st, some st ∈ participationStatements b data appointment' requests →
        st.key ≠ .participation jobSeeker appointment := by
      intro st hst
      obtain ⟨r, -, hr⟩ := List.mem_map.1 hst
      obtain ⟨defaults, -, rfl⟩ := Option.map_eq_some_iff.1 hr
      simp [participationStatement, happointment]
    rw [effectAt_of_notMem hne]

theorem key_of_participationStatements {data : Json} {appointment : Int} {requests : List InvitationRequest}
    {st : Statement} (h : some st ∈ participationStatements b data appointment requests) :
    ∃ jobSeeker, st.key = .participation jobSeeker appointment := by
  obtain ⟨r, -, hr⟩ := List.mem_map.1 h
  obtain ⟨defaults, -, rfl⟩ := Option.map_eq_some_iff.1 hr
  exact ⟨r.jobSeeker, rfl⟩

theorem location_not_appointment {t : Tables} {rdvsCompanyId location : Option Int} {requests : List InvitationRequest}
    {data : Json} {st : Statement} (h : some st ∈ appointmentStatements b t rdvsCompanyId requests data location)
    (id : Int) : st.key ≠ .location id := by
  unfold appointmentStatements at h
  intro hk
  cases ha : appointmentOf b t rdvsCompanyId location data with
  | none =>
      rw [ha] at h
      cases List.mem_singleton.1 h
  | some a =>
      rw [ha] at h
      rcases List.mem_cons.1 h with heq | h
      · cases heq
        cases hk
      · obtain ⟨_, hkey⟩ := key_of_participationStatements b h
        cases hk.symm.trans hkey

/-- The statements on the appointment and its participations, again. -/
theorem appointment_again (t : Tables) (rdvsCompanyId : Option Int) (requests : List InvitationRequest) (data : Json)
    (location : Option Int) {k : Key} {row : Option Row} {row' : Row} (hrow : ∀ r ∈ row, r.key = k)
    (h : effectAt k (appointmentStatements b t rdvsCompanyId requests data location) row = some row') :
    effectAt k (appointmentStatements b t rdvsCompanyId requests data location) (some row') = some row' := by
  unfold appointmentStatements at h ⊢
  cases ha : appointmentOf b t rdvsCompanyId location data with
  | none => rfl
  | some a =>
      simp only [ha, effectAt] at h ⊢
      have hkeys : ∀ st, some st ∈ participationStatements b data a.rdvInsertionId requests →
          ∃ jobSeeker, st.key = .participation jobSeeker a.rdvInsertionId := fun st hst =>
        key_of_participationStatements b hst
      cases k with
      | participation jobSeeker appointment =>
          simp only [appointmentStatement, reduceCtorEq, if_false] at h ⊢
          exact participation_again b data a.rdvInsertionId requests hrow h
      | location id | invitation id =>
          rw [effectAt_of_notMem fun st hst hk => by
            obtain ⟨_, hkey⟩ := hkeys st hst
            cases hk.symm.trans hkey]
          simp [appointmentStatement]
      | appointment id =>
          have hne : ∀ st, some st ∈ participationStatements b data a.rdvInsertionId requests →
              st.key ≠ .appointment id := fun st hst hk => by
            obtain ⟨_, hkey⟩ := hkeys st hst
            cases hk.symm.trans hkey
          rw [effectAt_of_notMem hne] at h ⊢
          by_cases hid : a.rdvInsertionId = id
          · simp only [appointmentStatement, hid, if_true] at h ⊢
            cases row with
            | none =>
                cases h
                simp
            | some r =>
                cases r with
                | appointment old =>
                    simp only at h
                    split at h
                    · cases h
                      simp
                    · cases h
                | location _ => cases h
                | participation _ => cases h
                | invitation _ => cases h
          · simp [appointmentStatement, hid]

/-- A program leaves the rows that it has just written as they are. -/
theorem program_again {t : Tables} {event : Json} {todo : List (Option Statement)} (h : program b t event = some todo)
    (k : Key) (row : Option Row) (row' : Row) (hrow : ∀ r ∈ row, r.key = k)
    (heffect : effectAt k todo row = some row') : effectAt k todo (some row') = some row' := by
  rcases program_cases b h with ⟨rdvsCompanyId, requests, data, rfl⟩ | ⟨id, data, rfl⟩
  · unfold appointmentProgram at heffect ⊢
    rcases hlocation : locationOf b data with _ | _ | l
    · rfl
    · simp only [hlocation] at heffect
      exact appointment_again b t rdvsCompanyId requests data none hrow heffect
    · simp only [hlocation, effectAt] at heffect ⊢
      by_cases hk : (locationStatement l).key = k
      · subst hk
        have hsame : ∀ row, effectAt (.location l.rdvSolidaritesId)
            (appointmentStatements b t rdvsCompanyId requests data (some l.rdvSolidaritesId)) row = row :=
          effectAt_of_notMem fun st hst => location_not_appointment b hst l.rdvSolidaritesId
        rw [show (locationStatement l).key = .location l.rdvSolidaritesId from rfl, hsame] at heffect ⊢
        simp only [if_true] at heffect ⊢
        cases heffect
        rfl
      · simp only [if_neg hk] at heffect ⊢
        exact appointment_again b t rdvsCompanyId requests data _ hrow heffect
  · unfold invitationProgram at heffect ⊢
    generalize hst : (do
      let status ← getInvitationStatus data
      let deliveredAt ← dateOrNone b (← data.get? "delivered_at")
      return invitationStatement id status deliveredAt) = st? at heffect ⊢
    cases st? with
    | none => rfl
    | some st =>
        simp only [Option.bind_eq_bind, Option.bind_eq_some_iff, Option.pure_def, Option.some.injEq] at hst
        obtain ⟨status, _, _, _, deliveredAt, _, rfl⟩ := hst
        simp only [effectAt] at heffect ⊢
        by_cases hk : (invitationStatement id status deliveredAt).key = k
        · simp only [if_pos hk] at heffect ⊢
          cases row with
          | none => cases heffect
          | some r =>
              cases r with
              | invitation i =>
                  cases heffect
                  cases status <;> cases deliveredAt <;> rfl
              | location _ => cases heffect
              | appointment _ => cases heffect
              | participation _ => cases heffect
        · simp only [if_neg hk] at heffect ⊢

/-! ## Runs of deliveries -/

variable {ι : Type}

/-- What the webhook promises of the committed rows and events. -/
structure Applied [DecidableEq ι] (t : Tables) (deliveries : ι → Request) (rows₀ : List Row) (s : State ι) : Prop where
  /-- One location for each identifier, one appointment, one participation for a job seeker and an appointment. -/
  once : (s.rows.map Row.key).Nodup
  /-- The processed events applied all their upserts, one event after the other, and the other ones none. -/
  wholly : Serial (eventProgram b t) rows₀ (events b deliveries s) s.rows
  /-- A request that is not signed writes nothing. -/
  signed : ∀ move s', (deliveries move.transaction).isSigned b = false →
    s.step (deliveryProgram b t deliveries) move = some s' →
    s'.rows = s.rows ∧ events b deliveries s' = events b deliveries s
  /-- An event that is delivered again right after it was processed changes no row. -/
  again : ∀ log event event' processed moves s', events b deliveries s = log ++ [(event, true)] →
    run (LockedUpserts.System.step (deliveryProgram b t deliveries)) s moves = some s' →
    events b deliveries s' = events b deliveries s ++ [(event', processed)] → event'.body = event.body →
    s'.rows = s.rows

theorem wholly_of_inv {t : Tables} {deliveries : ι → Request} {rows₀ : List Row} {s : State ι}
    (h : LockedUpserts.Inv (deliveryProgram b t deliveries) rows₀ s) :
    Serial (eventProgram b t) rows₀ (events b deliveries s) s.rows :=
  h.serial.filterMap fun _ => rfl

theorem deliveryProgram_guarded {t : Tables} {deliveries : ι → Request} (i : ι) (todo : List (Option Statement))
    (h : deliveryProgram b t deliveries i = some todo) : Guarded [] todo := by
  obtain ⟨event, -, hprogram⟩ := Option.bind_eq_some_iff.1 h
  exact guarded_program b hprogram

variable [DecidableEq ι]

theorem Applied.of_inv {t : Tables} {deliveries : ι → Request} {rows₀ : List Row} {s : State ι}
    (hrows : (rows₀.map Row.key).Nodup) (h : LockedUpserts.Inv (deliveryProgram b t deliveries) rows₀ s) :
    Applied b t deliveries rows₀ s where
  once := h.nodup
  wholly := wholly_of_inv b h
  signed := by
    intro move s' hsigned hstep
    have hevent : (deliveries move.transaction).event? b = none := by simp [Request.event?, hsigned]
    have hprogram : deliveryProgram b t deliveries move.transaction = none := by
      rw [deliveryProgram, hevent]
      rfl
    have hidle : ∀ todo writes, s.phase move.transaction ≠ .running todo writes := by
      intro todo writes hphase
      obtain ⟨done, -, hdone, -⟩ := h.running _ _ _ hphase
      exact nomatch hprogram.symm.trans hdone
    rcases System.rows_of_step hidle hstep with ⟨hrows, hcommits | hcommits⟩
    · exact ⟨hrows, by rw [events, hcommits, events]⟩
    · refine ⟨hrows, ?_⟩
      rw [events, hcommits, List.filterMap_append, events]
      simp [hevent]
  again := by
    intro log event event' processed moves s' hlog hrun hlog' hbody
    have h' : LockedUpserts.Inv (deliveryProgram b t deliveries) rows₀ s' :=
      invariant_of_run (fun _ move _ hs hstep => hs.step (deliveryProgram_guarded b) move hstep) h hrun
    have hserial := wholly_of_inv b h
    have hserial' := wholly_of_inv b h'
    rw [hlog'] at hserial'
    rw [hlog] at hserial hserial'
    obtain ⟨-, -, todo, hprogram, -, -⟩ := hserial.last
    have hprogram' : eventProgram b t event' = some todo := by rw [eventProgram, hbody, ← eventProgram, hprogram]
    exact hserial.again hrows hprogram hprogram' (program_again b hprogram) hserial'

/-- `{"meta": {"model": "Invitation"}, "data": {"id": 1, "clicked": true, "delivered_at": null}}`. -/
def clickedInvitation : Json :=
  .object [("meta", .object [("model", .string "Invitation")]),
    ("data", .object [("id", .number 1), ("clicked", .bool true), ("delivered_at", .null)])]

/-- An appointment with a location and the participation of the user 7. -/
def seenAppointment : Json :=
  .object [("meta", .object [("model", .string "Rdv")]),
    ("data", .object [("id", .number 5),
      ("organisation", .object [("rdv_solidarites_organisation_id", .number 9)]),
      ("users", .array [.object [("id", .number 7)]]),
      ("lieu", .object [("rdv_solidarites_lieu_id", .number 3), ("name", .string "PLIE"), ("address", .string "Lille"),
        ("phone_number", .null)]),
      ("status", .string "seen"),
      ("motif", .object [("name", .string "Entretien"), ("collectif", .bool false),
        ("motif_category", .object [("short_name", .string "siae_interview")])]),
      ("starts_at", .string "2024-08-01T00:00:00Z"), ("duration_in_min", .number 30), ("cancelled_at", .null),
      ("address", .string "Lille"), ("users_count", .number 1), ("max_participants_count", .null),
      ("participations", .array [.object [("id", .number 4), ("status", .string "seen"),
        ("user", .object [("id", .number 7)])]])])]

/-- What the bodies `1` and `2` are, with their signatures. -/
def exampleBuiltins : Builtins where
  integer
    | .number (.finite q) => some (q.num.tdiv q.den)
    | .bool b => some (if b then 1 else 0)
    | .null | .number .notFinite | .string _ | .array _ | .object _ => none
  fromisoformat _ := some 1722470400
  minutes
    | .number (.finite q) => some (q.num.tdiv q.den)
    | .null | .bool _ | .number .notFinite | .string _ | .array _ | .object _ => none
  isUtf8 body := body.all (· < 128)
  hexdigest body := if body = [49] then "1f8e7cf1" else "93d4e5c7"
  loads body := some (if body = [49] then clickedInvitation else seenAppointment)

/-- The company 1 is that of the organisation 9, and has invited the job seeker 2, who is the user 7. -/
def exampleTables : Tables := ⟨[⟨⟨1, .ei⟩, "10000000000001", some 9⟩], [⟨2, 1, 7⟩]⟩

/-- The invitation is delivered twice, then the appointment. -/
def exampleDeliveries (i : Nat) : Request :=
  if i < 2 then ⟨[49], [("X-Rdvi-Signature", "1f8e7cf1")]⟩ else ⟨[50], [("X-Rdvi-Signature", "93d4e5c7")]⟩

/-- The second delivery of the invitation starts before the first one commits. The appointment, its location and its
participation are written by the third delivery, while the fourth one waits for the location. -/
def exampleMoves : List (LockedUpserts.Move Nat) :=
  [.start 0, .run 0, .start 1, .commit 0, .run 1, .commit 1,
    .start 2, .run 2, .start 3, .run 2, .run 2, .commit 2, .run 3, .run 3, .run 3, .commit 3]

end Itou.RdvInsertion
