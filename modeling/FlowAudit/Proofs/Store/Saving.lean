import FlowAudit.Proofs.Store.ReadBack
import FlowAudit.Proofs.Time.Order

namespace FlowAudit

namespace Store

variable {s : Store} {isCanceled : Bool} {faults : Faults} {st : Statement}

theorem access_eq_ok_iff {db : Database} : db.access isCanceled = .ok () ↔
    db.isClosed = false ∧ isCanceled = false ∧ db.isForeign = false := by
  cases hclosed : db.isClosed <;> cases isCanceled <;> cases hforeign : db.isForeign <;>
    simp [Database.access, hclosed, hforeign]

theorem attempt_eq_ok_iff : s.attempt isCanceled faults st = .ok () ↔
    s.database.access isCanceled = .ok () ∧ s.obstacle? faults st = none := by
  rw [attempt]
  cases s.database.access isCanceled <;> cases s.obstacle? faults st <;> simp

theorem obstacle?_eq_none_iff : s.obstacle? faults st = none ↔
    s.engine.refuse? s.dialect st = none ∧ faults st = none := by
  rw [obstacle?, Option.orElse_eq_none]

/-- A statement that was carried out would have been so without faults of other statements. -/
theorem attempt_of_faults (h : s.attempt isCanceled faults st = .ok ()) :
    s.attempt isCanceled .none st = .ok () := by
  rw [attempt_eq_ok_iff, obstacle?_eq_none_iff] at h ⊢
  exact ⟨h.1, h.2.1, rfl⟩

/-- The database is of the sort that the store takes it for. -/
structure Suited (s : Store) : Prop where
  lawful : s.engine.Lawful
  dialect : s.dialect = s.engine.dialect

theorem Suited.attempt_eq_ok (h : s.Suited) (haccess : s.database.access isCanceled = .ok ()) :
    s.attempt isCanceled .none st = .ok () := by
  rw [attempt_eq_ok_iff, obstacle?_eq_none_iff, h.dialect]
  exact ⟨haccess, h.lawful.understood st, rfl⟩

section Latest

theorem Suited.tableExists_eq_ok (h : s.Suited) (haccess : s.database.access isCanceled = .ok ()) :
    s.tableExists isCanceled = .ok s.database.runs.isSome := by
  rw [tableExists, h.attempt_eq_ok haccess]
  rfl

theorem Suited.last_eq_head (h : s.Suited) (haccess : s.database.access isCanceled = .ok ())
    (flow : String) :
    s.last isCanceled flow = match (s.engine.latestFirst (s.rows.filter (·.flow == flow))).head? with
      | none => .ok none
      | some r => ((Record.ofRun s.engine r).mapError (.within Statement.findLatest.task)).map some := by
  rw [last, h.tableExists_eq_ok haccess, ok_bind]
  cases hruns : s.database.runs with
  | none => simp [rows, hruns, Engine.latestFirst, pure_eq_ok]
  | some runs =>
    simp only [Option.isSome_some, Bool.not_true, Bool.false_eq_true, if_false, h.attempt_eq_ok haccess,
      ok_bind]
    cases (s.engine.latestFirst (s.rows.filter (·.flow == flow))).head? with
    | none => rfl
    | some r => cases (Record.ofRun s.engine r).mapError (Failure.within Statement.findLatest.task) <;> rfl

/-- The latest run of a flow is read from the last of its rows, if they were added in the order of time. -/
theorem Suited.last_eq (h : s.Suited)
    (hrows : s.rows.Pairwise fun a b ↦ s.engine.timeLe b.createdAt a.createdAt = false)
    (haccess : s.database.access isCanceled = .ok ()) (flow : String) :
    s.last isCanceled flow = match (s.rows.filter (·.flow == flow)).getLast? with
      | none => .ok none
      | some r => ((Record.ofRun s.engine r).mapError (.within Statement.findLatest.task)).map some := by
  rw [h.last_eq_head haccess, Engine.head?_latestFirst (hrows.filter (·.flow == flow))]

theorem last_of_faults {flow : String} {o : Option Record} (h : s.last isCanceled flow faults = .ok o) :
    s.database.access isCanceled = .ok () ∧ s.last isCanceled flow = .ok o := by
  rw [last, tableExists] at h
  cases hfind : s.attempt isCanceled faults .findTable with
  | error e => simp [hfind, error_bind] at h
  | ok _ =>
    refine ⟨(attempt_eq_ok_iff.1 hfind).1, ?_⟩
    rw [last, tableExists, attempt_of_faults hfind]
    rw [hfind] at h
    cases hruns : s.database.runs with
    | none =>
      simp only [hruns, Option.isSome_none, ok_bind, pure_eq_ok, Bool.not_false, if_true] at h ⊢
      exact h
    | some runs =>
      cases hlatest : s.attempt isCanceled faults .findLatest with
      | error e => simp [hruns, hlatest, ok_bind, error_bind, pure_eq_ok] at h
      | ok _ =>
        simp only [hruns, hlatest, ok_bind, pure_eq_ok, attempt_of_faults hlatest] at h ⊢
        exact h

end Latest

section Saving

/-- A call to save an analysis at the time that a clock shows. -/
structure Request where
  analysis : Option Analysis
  checksum : String
  options : SaveOptions := {}
  isCanceled : Bool := false
  faults : Faults := .none
  now : Time

variable {idOf : Nat → String} {q : Request}

def answer (idOf : Nat → String) (s : Store) (q : Request) : Except Failure Saved × Store :=
  s.save q.isCanceled idOf q.now q.analysis q.checksum q.options q.faults

def recordOf (idOf : Nat → String) (s : Store) (q : Request) (a : Analysis) : Record :=
  .ofAnalysis (idOf s.issued) q.checksum q.now a

theorem rows_tabled (s : Store) : s.tabled.rows = s.rows := rfl

theorem tabled_eq_self {runs : List Run} (h : s.database.runs = some runs) : s.tabled = s := by
  have hrows : s.database.runs = some s.rows := by simp [rows, h]
  rw [tabled, ← hrows]

theorem insertRun_eq_ok {r : Run} {after : Store} (h : s.insertRun isCanceled r = .ok after) :
    ∃ runs, s.database.runs = some runs ∧
      after = { s with database.runs := some (runs ++ [r]) } := by
  rw [insertRun] at h
  cases haccess : s.database.access isCanceled with
  | error e => simp [haccess, error_bind] at h
  | ok _ =>
    cases hruns : s.database.runs with
    | none => simp [haccess, Database.needRuns, hruns, ok_bind, error_bind] at h
    | some runs =>
      simp only [haccess, Database.needRuns, hruns, ok_bind] at h
      split at h
      · cases h
      · exact ⟨runs, rfl, (Except.ok.inj h).symm⟩

/-- A row is refused by the table only beside an earlier one, so where there was a table before. -/
theorem insertRun_tabled_of_none {r : Run} (haccess : s.database.access isCanceled = .ok ())
    (h : s.database.runs = none) : ∃ after, s.tabled.insertRun isCanceled r = .ok after := by
  have haccess' : s.tabled.database.access isCanceled = .ok () := haccess
  have htable : s.tabled.database.runs = some [] := by simp [tabled, rows, h]
  simp [insertRun, haccess', Database.needRuns, htable, ok_bind, pure_eq_ok]

/-- A statement meets an obstacle after the one that makes the table. -/
def Interrupted (s : Store) (faults : Faults) : Prop :=
  (s.obstacle? faults .makeIndex).isSome ∨ (s.obstacle? faults .addRow).isSome

/-- All that can come of adding a record: nothing, a table for it without the row, or the row. -/
inductive Adding (s : Store) (isCanceled : Bool) (faults : Faults) (r : Record) :
    Except Failure Unit × Store → Prop
  | failed (e : Failure) : Adding s isCanceled faults r (.error e, s)
  | tabled (e : Failure) (no_table : s.database.runs = none) (interrupted : s.Interrupted faults) :
    Adding s isCanceled faults r (.error e, s.tabled)
  | added (access_eq : s.database.access isCanceled = .ok ()) :
    Adding s isCanceled faults r (.ok (), { s with database.runs := some (s.rows ++ [r.toRun]) })

/-- An obstacle after the table was made leaves that table, if it is a new one. -/
theorem Adding.of_interrupted {r : Record} (h : s.Interrupted faults) (e : Failure) :
    Adding s isCanceled faults r (.error e, s.tabled) := by
  cases hruns : s.database.runs with
  | none => exact .tabled e hruns h
  | some runs =>
    rw [tabled_eq_self hruns]
    exact .failed e

theorem isSome_obstacle? {e : Failure} (haccess : s.database.access isCanceled = .ok ())
    (h : s.attempt isCanceled faults st = .error e) : (s.obstacle? faults st).isSome := by
  rw [attempt, haccess] at h
  cases hobstacle : s.obstacle? faults st with
  | none => simp [hobstacle] at h
  | some e => rfl

theorem addRecord_adding (s : Store) (isCanceled : Bool) (faults : Faults) (r : Record) :
    Adding s isCanceled faults r (s.addRecord isCanceled faults r) := by
  rw [addRecord, ensureSchema]
  cases hmake : s.attempt isCanceled faults .makeTable with
  | error e => exact .failed e
  | ok _ =>
    have haccess := (attempt_eq_ok_iff.1 hmake).1
    cases hindex : s.tabled.attempt isCanceled faults .makeIndex with
    | error e => exact .of_interrupted (.inl (isSome_obstacle? haccess hindex)) e
    | ok _ =>
      cases hrow : s.tabled.attempt isCanceled faults .addRow with
      | error e =>
        simp only [hrow]
        exact .of_interrupted (.inr (isSome_obstacle? haccess hrow)) e
      | ok _ =>
        cases hinsert : s.tabled.insertRun isCanceled r.toRun with
        | error e =>
          simp only [hrow, hinsert]
          cases hruns : s.database.runs with
          | none =>
            obtain ⟨after, hafter⟩ := insertRun_tabled_of_none (r := r.toRun) haccess hruns
            rw [hinsert] at hafter
            cases hafter
          | some runs =>
            rw [tabled_eq_self hruns]
            exact .failed _
        | ok after =>
          obtain ⟨runs, hruns, rfl⟩ := insertRun_eq_ok hinsert
          obtain rfl := Option.some_inj.1 hruns
          simp only [hrow, hinsert]
          exact .added haccess

/-- In a transaction of its own a record is written as a row, or nothing is. -/
theorem write_adding (s : Store) (isCanceled : Bool) (faults : Faults) (r : Record) :
    Adding s isCanceled faults r (s.write isCanceled faults r) ∧
      (s.begun = none → ∀ e, (s.write isCanceled faults r).1 = .error e →
        (s.write isCanceled faults r).2 = s) := by
  have hadding := addRecord_adding s isCanceled faults r
  rw [write]
  cases hbegun : s.begun with
  | some db => exact ⟨hadding, fun h ↦ by cases h⟩
  | none =>
    rw [if_neg (by simp)]
    cases hbegin : s.attempt isCanceled faults .begin with
    | error e => exact ⟨.failed e, fun _ _ _ ↦ rfl⟩
    | ok _ =>
      generalize s.addRecord isCanceled faults r = result at hadding
      cases hadding with
      | failed e => exact ⟨.failed e, fun _ _ _ ↦ rfl⟩
      | tabled e => exact ⟨.failed e, fun _ _ _ ↦ rfl⟩
      | added haccess =>
        simp only
        generalize hafter : ({ s with database.runs := some (s.rows ++ [r.toRun]) } : Store) = after
        cases hcommit : after.attempt isCanceled faults .commit with
        | error e => exact ⟨.failed e, fun _ _ _ ↦ rfl⟩
        | ok _ =>
          subst hafter
          exact ⟨.added haccess, fun _ e h ↦ by cases h⟩

/-- Both stores work on the same sort of database, and in the same transaction. -/
structure Alike (s s' : Store) : Prop where
  engine : s'.engine = s.engine
  dialect : s'.dialect = s.dialect
  begun : s'.begun = s.begun

theorem Alike.refl (s : Store) : Alike s s := ⟨rfl, rfl, rfl⟩

theorem Alike.suited {s' : Store} (h : Alike s s') (hs : s.Suited) : s'.Suited :=
  ⟨h.engine ▸ hs.lawful, by rw [h.dialect, h.engine, hs.dialect]⟩

theorem Alike.last_eq {s' : Store} (h : Alike s s') (hdatabase : s'.database = s.database)
    (isCanceled : Bool) (flow : String) : s'.last isCanceled flow = s.last isCanceled flow := by
  have hattempt (st : Statement) : s'.attempt isCanceled .none st = s.attempt isCanceled .none st := by
    rw [attempt, attempt, obstacle?, obstacle?, hdatabase, h.engine, h.dialect]
  rw [last, last, tableExists, tableExists, hattempt, hattempt, rows, rows, hdatabase, h.engine]

/-- All that a call to save an analysis can do to a database. -/
inductive Effect (idOf : Nat → String) (s : Store) (q : Request) :
    Except Failure Saved → Database → Prop
  | failed (e : Failure) : Effect idOf s q (.error e) s.database
  | tabled (e : Failure) (begun : s.begun.isSome) (no_table : s.database.runs = none)
    (interrupted : s.Interrupted q.faults) (not_dry : q.options.isDryRun = false) :
    Effect idOf s q (.error e) s.tabled.database
  | skipped {a : Analysis} {last : Record} (analysis_eq : q.analysis = some a)
    (not_dry : q.options.isDryRun = false)
    (last_eq : s.last q.isCanceled a.name q.faults = .ok (some last)) :
    Effect idOf s q (.ok (.skipped last)) s.database
  | planned {a : Analysis} (is_dry : q.options.isDryRun = true) :
    Effect idOf s q (.ok (.planned (recordOf idOf s q a))) s.database
  | recorded {a : Analysis} (analysis_eq : q.analysis = some a)
    (not_dry : q.options.isDryRun = false) (writable : a.unwritable? = none)
    (access_eq : s.database.access q.isCanceled = .ok ())
    (changed : q.options.isForced = false → ∃ last, s.last q.isCanceled a.name q.faults = .ok last ∧
      shouldSkip last q.checksum = false) :
    Effect idOf s q (.ok (.recorded (recordOf idOf s q a)))
      { s.database with runs := some (s.rows ++ [(recordOf idOf s q a).toRun]) }

theorem needless?_eq_ok {a : Analysis} {checksum : String} {o : Option Record}
    (h : s.needless? isCanceled faults a checksum = .ok o) :
    ∃ last, s.last isCanceled a.name faults = .ok last ∧
      o = if shouldSkip last checksum then last else none := by
  rw [needless?] at h
  cases hlast : s.last isCanceled a.name faults with
  | error e => simp [hlast, Except.mapError] at h
  | ok last =>
    simp only [hlast, Except.mapError, ok_bind, pure_eq_ok, Except.ok.injEq] at h
    exact ⟨last, rfl, h.symm⟩

/-- Unless it is forced or a trial, a call asks first for the latest run of the flow. -/
def asked (s : Store) (q : Request) (a : Analysis) : Except Failure (Option Record) :=
  if !q.options.isForced && !q.options.isDryRun then s.needless? q.isCanceled q.faults a q.checksum
  else .ok none

theorem answer_some {a : Analysis} (ha : q.analysis = some a) :
    s.answer idOf q = match s.asked q a, a.unwritable? with
      | .error e, _ => (.error e, s)
      | .ok (some last), _ => (.ok (.skipped last), s)
      | .ok none, some e => (.error (.within "encoding analysis" (.plain e)), s)
      | .ok none, none =>
        if q.options.isDryRun then
          (.ok (.planned (recordOf idOf s q a)), { s with issued := s.issued + 1 })
        else
          match s.write q.isCanceled q.faults (recordOf idOf s q a) with
          | (.ok _, after) =>
            (.ok (.recorded (recordOf idOf s q a)), { after with issued := after.issued + 1 })
          | (.error e, after) => (.error e, { after with issued := after.issued + 1 }) := by
  rw [answer, ha]
  rfl

theorem asked_eq_some {a : Analysis} {last : Record} (h : s.asked q a = .ok (some last)) :
    q.options.isDryRun = false ∧ s.last q.isCanceled a.name q.faults = .ok (some last) := by
  rw [asked] at h
  split at h
  · next hasks =>
    simp only [Bool.and_eq_true, Bool.not_eq_true'] at hasks
    obtain ⟨found, hlast, hfound⟩ := needless?_eq_ok h
    split at hfound
    · exact ⟨hasks.2, hfound ▸ hlast⟩
    · cases hfound
  · cases h

theorem asked_eq_none {a : Analysis} (h : s.asked q a = .ok none) (hforced : q.options.isForced = false)
    (hdry : q.options.isDryRun = false) : ∃ last, s.last q.isCanceled a.name q.faults = .ok last ∧
      shouldSkip last q.checksum = false := by
  rw [asked, if_pos (by simp [hforced, hdry])] at h
  obtain ⟨found, hlast, hfound⟩ := needless?_eq_ok h
  refine ⟨found, hlast, ?_⟩
  cases hskip : shouldSkip found q.checksum with
  | false => rfl
  | true =>
    rw [hskip, if_pos rfl] at hfound
    simp [← hfound, shouldSkip] at hskip

theorem answer_effect (idOf : Nat → String) (s : Store) (q : Request) :
    Effect idOf s q (s.answer idOf q).1 (s.answer idOf q).2.database ∧ Alike s (s.answer idOf q).2 := by
  cases ha : q.analysis with
  | none =>
    rw [answer, ha]
    exact ⟨.failed _, .refl s⟩
  | some a =>
    rw [answer_some ha]
    cases hasked : s.asked q a with
    | error e => exact ⟨.failed e, .refl s⟩
    | ok found =>
      cases found with
      | some last => exact ⟨.skipped ha (asked_eq_some hasked).1 (asked_eq_some hasked).2, .refl s⟩
      | none =>
        cases hwritable : a.unwritable? with
        | some e => exact ⟨.failed _, .refl s⟩
        | none =>
          cases hdry : q.options.isDryRun with
          | true => exact ⟨.planned hdry, rfl, rfl, rfl⟩
          | false =>
            obtain ⟨hadding, hundone⟩ := write_adding s q.isCanceled q.faults (recordOf idOf s q a)
            generalize s.write q.isCanceled q.faults (recordOf idOf s q a) = result at hadding hundone
            cases hadding with
            | failed e => exact ⟨.failed e, rfl, rfl, rfl⟩
            | tabled e htable hinterrupted =>
              cases hbegun : s.begun with
              | some db => exact ⟨.tabled e (by simp [hbegun]) htable hinterrupted hdry, rfl, rfl, rfl⟩
              | none =>
                -- In a transaction of its own not even the table stays.
                have hself := congrArg (·.database.runs) (hundone hbegun e rfl)
                simp [tabled, htable] at hself
            | added haccess =>
              exact ⟨.recorded ha hdry hwritable haccess fun hforced ↦ asked_eq_none hasked hforced hdry,
                rfl, rfl, rfl⟩

/-- Only a record that was written adds a row. -/
theorem Effect.rows_eq {outcome : Except Failure Saved} {s' : Store}
    (h : Effect idOf s q outcome s'.database) :
    (q.options.isDryRun = true → s'.rows = s.rows) ∧
    (q.options.isDryRun = false →
      (∀ saved, outcome = .ok saved → saved.isSkipped = false →
        s'.rows = s.rows ++ [saved.record.toRun]) ∧
      ((∀ saved, outcome = .ok saved → saved.isSkipped = true) → s'.rows = s.rows)) := by
  rw [rows]
  generalize s'.database = db at h
  cases h with
  | failed e => exact ⟨fun _ ↦ rfl, fun _ ↦ ⟨nofun, fun _ ↦ rfl⟩⟩
  | tabled e => exact ⟨fun _ ↦ rfl, fun _ ↦ ⟨nofun, fun _ ↦ rfl⟩⟩
  | skipped ha hdry hlast =>
    refine ⟨fun _ ↦ rfl, fun _ ↦ ⟨fun saved h hskipped ↦ ?_, fun _ ↦ rfl⟩⟩
    obtain rfl := Except.ok.inj h
    cases hskipped
  | planned hdry => exact ⟨fun _ ↦ rfl, fun h ↦ by simp [hdry] at h⟩
  | recorded ha hdry =>
    refine ⟨fun h ↦ by simp [hdry] at h, fun _ ↦ ⟨fun saved h _ ↦ ?_, fun h ↦ ?_⟩⟩
    · obtain rfl := Except.ok.inj h
      rfl
    · cases h _ rfl

end Saving

end Store

end FlowAudit
