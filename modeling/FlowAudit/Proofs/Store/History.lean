import FlowAudit.Proofs.Store.Saving

namespace FlowAudit

theorem Record.ofRun_eq_ok {e : Engine} {run : Run} {r : Record} (h : ofRun e run = .ok r) :
    r.checksum = run.checksum ∧ r.analyzerVersion = run.analyzerVersion ∧ r.flow = run.flow ∧
      e.readTime 9 "created_at" run.createdAt = .ok r.createdAt := by
  rw [ofRun] at h
  cases htime : e.readTime 9 "created_at" run.createdAt with
  | error e => simp [htime, error_bind] at h
  | ok t =>
    rw [htime, ok_bind] at h
    split at h
    · cases h
    · cases hdecode : decode run.result with
      | error e => simp [hdecode, Except.mapError] at h
      | ok a =>
        simp only [hdecode, Except.mapError, ok_bind, pure_eq_ok, Except.ok.injEq] at h
        subst h
        exact ⟨rfl, rfl, rfl, rfl⟩

theorem Record.filter_toRun (id checksum : String) (now : Time) (a : Analysis) :
    [(ofAnalysis id checksum now a).toRun].filter (·.flow == a.name) =
      [(ofAnalysis id checksum now a).toRun] := by
  simp [toRun, ofAnalysis, Analysis.name]

namespace Store

variable {idOf : Nat → String} {e : Engine} {s : Store} {q : Request} {qs : List Request}

def replay (idOf : Nat → String) (s : Store) (qs : List Request) : Store :=
  qs.foldl (fun s q ↦ (s.answer idOf q).2) s

/-- The clock goes on from call to call, and what is analyzed is sound. -/
structure Calls (e : Engine) (qs : List Request) : Prop where
  times : qs.Pairwise fun q q' ↦ q.now.before q'.now = true
  tells : ∀ q ∈ qs, e.Tells q.now
  sound : ∀ q ∈ qs, ∀ a ∈ q.analysis, ∀ n ∈ a.nodes, n.IsSound

theorem Calls.of_append {qs' : List Request} (h : Calls e (qs ++ qs')) : Calls e qs :=
  ⟨(List.pairwise_append.1 h.times).1, fun q hq ↦ h.tells q (List.mem_append_left _ hq),
    fun q hq ↦ h.sound q (List.mem_append_left _ hq)⟩

/-- What holds of the rows after calls: each was made by one of them, they stand in the order of time,
and of two that follow each other for one flow the later was forced or has another checksum. -/
structure Kept (idOf : Nat → String) (e : Engine) (qs : List Request) (s : Store) : Prop where
  suited : s.Suited
  engine_eq : s.engine = e
  made : ∀ row ∈ s.rows, ∃ q ∈ qs, ∃ a n, q.analysis = some a ∧ a.unwritable? = none ∧
    row = (Record.ofAnalysis (idOf n) q.checksum q.now a).toRun
  ordered : s.rows.Pairwise fun r r' ↦ r.createdAt.before r'.createdAt = true
  distinct : ∀ flow, (s.rows.filter (·.flow == flow)).IsChain fun r r' ↦
    r.checksum ≠ r'.checksum ∨ ∃ q ∈ qs, q.now = r'.createdAt ∧ q.options.isForced = true

theorem Kept.tells (h : Kept idOf e qs s) (hcalls : Calls e qs) {row : Run} (hrow : row ∈ s.rows) :
    e.Tells row.createdAt := by
  obtain ⟨q, hq, a, n, -, -, rfl⟩ := h.made row hrow
  exact hcalls.tells q hq

theorem Kept.last_eq (h : Kept idOf e qs s) (hcalls : Calls e qs) {isCanceled : Bool}
    (haccess : s.database.access isCanceled = .ok ()) (flow : String) :
    s.last isCanceled flow = match (s.rows.filter (·.flow == flow)).getLast? with
      | none => .ok none
      | some r => ((Record.ofRun e r).mapError (.within Statement.findLatest.task)).map some := by
  have hengine := h.engine_eq
  subst hengine
  refine h.suited.last_eq (h.ordered.imp_of_mem fun {r r'} hr hr' hbefore ↦ ?_) haccess flow
  rw [← Bool.not_eq_true, h.suited.lawful.timeLe_iff (h.tells hcalls hr') (h.tells hcalls hr), hbefore]
  exact Bool.noConfusion

theorem Kept.of_rows_eq {s' : Store} (h : Kept idOf e qs s) (halike : Alike s s') (hrows : s'.rows = s.rows)
    (q : Request) : Kept idOf e (qs ++ [q]) s' := by
  refine ⟨halike.suited h.suited, halike.engine.trans h.engine_eq, ?_, hrows ▸ h.ordered, ?_⟩
  · rw [hrows]
    intro row hrow
    obtain ⟨q', hq', hmade⟩ := h.made row hrow
    exact ⟨q', List.mem_append_left _ hq', hmade⟩
  · rw [hrows]
    intro flow
    refine (h.distinct flow).imp fun r r' hr ↦ hr.imp_right ?_
    rintro ⟨q', hq', hforced⟩
    exact ⟨q', List.mem_append_left _ hq', hforced⟩

theorem Kept.checksum_ne (h : Kept idOf e qs s) (hcalls : Calls e qs) {isCanceled : Bool}
    (haccess : s.database.access isCanceled = .ok ()) {flow checksum : String} {last : Option Record}
    (hlast : s.last isCanceled flow = .ok last) (hskip : shouldSkip last checksum = false) :
    ∀ row ∈ (s.rows.filter (·.flow == flow)).getLast?, row.checksum ≠ checksum := by
  intro row hrow
  rw [h.last_eq hcalls haccess, hrow] at hlast
  obtain ⟨q, -, a, n, -, -, hmade⟩ := h.made row (List.mem_filter.1 (List.mem_of_getLast? hrow)).1
  cases hread : Record.ofRun e row with
  | error e => simp [hread, Except.mapError, Except.map] at hlast
  | ok r =>
    obtain ⟨hchecksum, hversion, -⟩ := Record.ofRun_eq_ok hread
    obtain rfl : some r = last := by simpa [hread, Except.mapError, Except.map] using hlast
    have hsame : r.analyzerVersion = analyzerVersion := by
      rw [hversion, hmade]
      rfl
    rintro rfl
    simp [shouldSkip, hchecksum, hsame] at hskip

theorem Kept.of_rows_append {s' : Store} {a : Analysis} {n : Nat} (h : Kept idOf e qs s)
    (halike : Alike s s') (hcalls : Calls e (qs ++ [q])) (ha : q.analysis = some a)
    (hwritable : a.unwritable? = none)
    (hchanged : q.options.isForced = false →
      ∀ row ∈ (s.rows.filter (·.flow == a.name)).getLast?, row.checksum ≠ q.checksum)
    (hrows : s'.rows = s.rows ++ [(Record.ofAnalysis (idOf n) q.checksum q.now a).toRun]) :
    Kept idOf e (qs ++ [q]) s' := by
  obtain ⟨-, -, hmade, hordered, hdistinct⟩ := h.of_rows_eq (.refl s) rfl q
  refine ⟨halike.suited h.suited, halike.engine.trans h.engine_eq, ?_, ?_, fun flow ↦ ?_⟩
  · rw [hrows]
    intro row hrow
    obtain hrow | hrow := List.mem_append.1 hrow
    · exact hmade row hrow
    · exact ⟨q, by simp, a, n, ha, hwritable, List.mem_singleton.1 hrow⟩
  · rw [hrows, List.pairwise_append]
    refine ⟨hordered, List.pairwise_singleton _ _, fun row hrow row' hrow' ↦ ?_⟩
    obtain ⟨q', hq', a', n', -, -, rfl⟩ := h.made row hrow
    obtain rfl := List.mem_singleton.1 hrow'
    exact (List.pairwise_append.1 hcalls.times).2.2 q' hq' q (by simp)
  · rw [hrows, List.filter_append]
    by_cases hflow : a.name = flow
    · subst hflow
      rw [Record.filter_toRun]
      refine (hdistinct a.name).append (List.isChain_singleton _) fun row hrow row' hrow' ↦ ?_
      obtain rfl := Option.mem_some_iff.1 hrow'
      cases hforced : q.options.isForced with
      | true => exact .inr ⟨q, by simp, rfl, hforced⟩
      | false => exact .inl (hchanged hforced row hrow)
    · rw [List.filter_cons_of_neg (by
          simpa [Record.toRun, Record.ofAnalysis, Analysis.name] using hflow), List.filter_nil,
        List.append_nil]
      exact hdistinct flow

theorem kept_answer (h : Kept idOf e qs s) (hcalls : Calls e (qs ++ [q])) :
    Kept idOf e (qs ++ [q]) (s.answer idOf q).2 := by
  obtain ⟨heffect, halike⟩ := answer_effect idOf s q
  generalize (s.answer idOf q).1 = outcome, (s.answer idOf q).2 = s' at heffect halike
  generalize hdatabase : s'.database = db at heffect
  cases heffect with
  | failed => exact h.of_rows_eq halike (by rw [rows, hdatabase, rows]) q
  | tabled => exact h.of_rows_eq halike (by rw [rows, hdatabase, ← rows_tabled s, rows]) q
  | skipped => exact h.of_rows_eq halike (by rw [rows, hdatabase, rows]) q
  | planned => exact h.of_rows_eq halike (by rw [rows, hdatabase, rows]) q
  | recorded ha _ hwritable haccess hchanged =>
    refine h.of_rows_append halike hcalls ha hwritable (fun hforced ↦ ?_) (by rw [rows, hdatabase]; rfl)
    obtain ⟨last, hlast, hskip⟩ := hchanged hforced
    exact h.checksum_ne hcalls.of_append haccess (last_of_faults hlast).2 hskip

/-- What holds of the rows is kept by all calls. -/
theorem kept_replay (hsuited : s.Suited) (hempty : s.rows = []) (hcalls : Calls s.engine qs) :
    Kept idOf s.engine qs (replay idOf s qs) := by
  induction qs using List.reverseRecOn with
  | nil => exact ⟨hsuited, rfl, by simp [replay, hempty], by simp [replay, hempty], by simp [replay, hempty]⟩
  | append_singleton qs q ih =>
    rw [replay, List.foldl_append]
    exact kept_answer (ih hcalls.of_append) hcalls

theorem Kept.last_recorded {a : Analysis} {n : Nat} (h : Kept idOf e (qs ++ [q]) s)
    (hcalls : Calls e (qs ++ [q])) (hid : ∀ n, Uuid.normalize? (idOf n) = some (idOf n))
    (ha : q.analysis = some a) (hwritable : a.unwritable? = none)
    (haccess : s.database.access false = .ok ()) {rows : List Run}
    (hrows : s.rows = rows ++ [(Record.ofAnalysis (idOf n) q.checksum q.now a).toRun]) :
    ∃ r, s.last false a.name = .ok (some r) ∧ r.id = idOf n := by
  have hdecode := Record.decode_compact (hcalls.sound q (by simp) a ha) hwritable
  have hread := Record.ofRun_toRun (h.engine_eq ▸ h.suited.lawful)
    (r := Record.ofAnalysis (idOf n) q.checksum q.now a) (hid n) (hcalls.tells q (by simp)) hdecode
  have hlast : (s.rows.filter (·.flow == a.name)).getLast? =
      some (Record.ofAnalysis (idOf n) q.checksum q.now a).toRun := by
    rw [hrows, List.filter_append, Record.filter_toRun, List.getLast?_append, List.getLast?_singleton,
      Option.some_or]
  rw [h.last_eq hcalls haccess, hlast]
  simp only [hread]
  exact ⟨_, rfl, rfl⟩

/-- The latest run of a flow after a call is the one that the call tells of. -/
theorem Kept.last_answered {s' : Store} {a : Analysis} {saved : Saved} (h : Kept idOf e (qs ++ [q]) s')
    (heffect : Effect idOf s q (.ok saved) s'.database) (halike : Alike s s') (hcalls : Calls e (qs ++ [q]))
    (hid : ∀ n, Uuid.normalize? (idOf n) = some (idOf n)) (hdry : q.options.isDryRun = false)
    (ha : q.analysis = some a) :
    ∃ r, s'.last false a.name = .ok (some r) ∧ r.id = saved.record.id := by
  generalize hdatabase : s'.database = db at heffect
  cases heffect with
  | @skipped b last hb _ hlast =>
    obtain rfl : a = b := Option.some_inj.1 (ha.symm.trans hb)
    obtain ⟨haccess, hlast⟩ := last_of_faults hlast
    have hcanceled : q.isCanceled = false := (access_eq_ok_iff.1 haccess).2.1
    exact ⟨last, by rw [halike.last_eq hdatabase, ← hcanceled, hlast], rfl⟩
  | planned hplanned => simp [hplanned] at hdry
  | @recorded b hb _ hwritable haccess =>
    obtain rfl : a = b := Option.some_inj.1 (ha.symm.trans hb)
    have haccess' : s'.database.access false = .ok () := by
      obtain ⟨hclosed, -, hforeign⟩ := access_eq_ok_iff.1 haccess
      rw [hdatabase]
      exact access_eq_ok_iff.2 ⟨hclosed, rfl, hforeign⟩
    exact h.last_recorded hcalls hid ha hwritable haccess' (by rw [Store.rows, hdatabase]; rfl)

/-- Calls to save analyses, on a store that has no runs at first and by a clock that goes on. A call that
is no trial adds its record as one row exactly if it neither fails nor skips, and nothing otherwise. After
it the latest run of the flow is the one that was recorded or skipped for. Rows stand in the order of time,
and of two that follow each other for one flow the later was forced or has another checksum. -/
theorem saving_history (hid : ∀ n, Uuid.normalize? (idOf n) = some (idOf n)) (hsuited : s.Suited)
    (hempty : s.rows = []) (hcalls : Calls s.engine (qs ++ [q])) :
    let s₁ := replay idOf s qs
    let outcome := (s₁.answer idOf q).1
    let s₂ := replay idOf s (qs ++ [q])
    (q.options.isDryRun = true → s₂.rows = s₁.rows) ∧
    (q.options.isDryRun = false →
      (∀ saved, outcome = .ok saved → saved.isSkipped = false →
        s₂.rows = s₁.rows ++ [saved.record.toRun]) ∧
      ((∀ saved, outcome = .ok saved → saved.isSkipped = true) → s₂.rows = s₁.rows)) ∧
    (∀ saved a, outcome = .ok saved → q.options.isDryRun = false → q.analysis = some a →
      ∃ r, s₂.last false a.name = .ok (some r) ∧ r.id = saved.record.id) ∧
    (s₂.rows.Pairwise fun r r' ↦ r.createdAt.before r'.createdAt = true) ∧
    ∀ flow, (s₂.rows.filter (·.flow == flow)).IsChain fun r r' ↦
      r.checksum ≠ r'.checksum ∨
        ∃ q' ∈ qs ++ [q], q'.now = r'.createdAt ∧ q'.options.isForced = true := by
  intro s₁ outcome s₂
  have hkept : Kept idOf s.engine (qs ++ [q]) s₂ := kept_replay hsuited hempty hcalls
  have hstep : s₂ = (s₁.answer idOf q).2 := by
    simp only [s₂, s₁, replay, List.foldl_append, List.foldl_cons, List.foldl_nil]
  obtain ⟨heffect, halike⟩ : Effect idOf s₁ q outcome s₂.database ∧ Alike s₁ s₂ := by
    rw [hstep]
    exact answer_effect idOf s₁ q
  refine ⟨heffect.rows_eq.1, heffect.rows_eq.2, fun saved a hsaved hdry ha ↦ ?_, hkept.ordered,
    hkept.distinct⟩
  rw [hsaved] at heffect
  exact hkept.last_answered heffect halike hcalls hid hdry ha

section Examples

def twoIds (n : Nat) : String :=
  if n = 0 then "00000000-0000-4000-8000-000000000001" else "00000000-0000-4000-8000-000000000002"

theorem normalize?_twoIds (n : Nat) : Uuid.normalize? (twoIds n) = some (twoIds n) := by
  by_cases h : n = 0 <;> simp only [twoIds, h, if_true, if_false] <;> decide

def callAt (seconds : Int) (a : Analysis) (checksum : String) (isForced : Bool) : Request :=
  { analysis := some a, checksum := checksum, options.isForced := isForced, now := { seconds := seconds } }

def orderAnalysis : Analysis := .node { name := "Order" } []

/-- A run, one that is skipped, and one that is forced. -/
theorem forced_run_kept :
    let qs := [callAt 0 orderAnalysis "a" false, callAt 1 orderAnalysis "a" false]
    let q := callAt 2 orderAnalysis "a" true
    Calls Engine.sqlite (qs ++ [q]) ∧
    ∀ flow, ((replay twoIds {} (qs ++ [q])).rows.filter (·.flow == flow)).IsChain fun r r' ↦
      r.checksum ≠ r'.checksum ∨
        ∃ q' ∈ qs ++ [q], q'.now = r'.createdAt ∧ q'.options.isForced = true := by
  intro qs q
  have hcalls : Calls Engine.sqlite (qs ++ [q]) := ⟨by decide, by decide, by decide⟩
  exact ⟨hcalls, (saving_history normalize?_twoIds ⟨Engine.lawful_sqlite, rfl⟩ rfl hcalls).2.2.2.2⟩

end Examples

end Store

end FlowAudit
