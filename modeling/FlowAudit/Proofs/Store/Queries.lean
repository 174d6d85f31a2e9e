import FlowAudit.Proofs.Store.History
import FlowAudit.Proofs.Table

namespace FlowAudit

namespace Engine

variable {e : Engine} {runs : List Run}

/-- The first run is newer: its time is later, or the same and its identifier greater. -/
def Newer (e : Engine) (a b : Run) : Prop :=
  b.createdAt.before a.createdAt = true ∨
    b.createdAt = a.createdAt ∧ b.id ≠ a.id ∧ e.textLe b.id a.id = true

/-- What a table of runs holds: no identifier twice, only rows that can be read, and times that a clock
has told. -/
structure Readable (e : Engine) (runs : List Run) : Prop where
  distinct : (runs.map (·.id)).Nodup
  decodes : ∀ r ∈ runs, ∃ record, Record.ofRun e r = .ok record
  tells : ∀ r ∈ runs, e.Tells r.createdAt

theorem Readable.eq_of_isLater (h : e.Readable runs) {a b : Run} (ha : a ∈ runs) (hb : b ∈ runs)
    (hab : e.isLater a b = true) (hba : e.isLater b a = true) : a = b := by
  rw [isLater_iff] at hab hba
  have hid := e.textLe_antisymm _ _ (hba.2 hab.1) (hab.2 hba.1)
  exact List.inj_on_of_nodup_map h.distinct ha hb hid

theorem Readable.pairwise_newer (h : e.Readable runs) (he : e.Lawful) :
    (e.latestFirst runs).Pairwise e.Newer := by
  have hdistinct : ((e.latestFirst runs).map (·.id)).Nodup :=
    ((e.latestFirst_perm runs).map _).nodup_iff.2 h.distinct
  refine ((e.pairwise_latestFirst runs).and (List.pairwise_map.1 hdistinct)).imp_of_mem ?_
  rintro a b ha hb ⟨hlater, hne⟩
  have htells := h.tells a ((e.latestFirst_perm runs).mem_iff.1 ha)
  have htells' := h.tells b ((e.latestFirst_perm runs).mem_iff.1 hb)
  obtain ⟨hle, htext⟩ := isLater_iff.1 hlater
  by_cases hge : e.timeLe a.createdAt b.createdAt = true
  · exact .inr ⟨he.eq_of_timeLe htells' htells hle hge, Ne.symm hne, htext hge⟩
  · rw [he.timeLe_iff htells htells', Bool.not_eq_false] at hge
    exact .inl hge

theorem Readable.filter_latestFirst (h : e.Readable runs) (p : Run → Bool) :
    (e.latestFirst runs).filter p = e.latestFirst (runs.filter p) := by
  have hperm : ((e.latestFirst runs).filter p).Perm (e.latestFirst (runs.filter p)) :=
    ((e.latestFirst_perm runs).filter p).trans (e.latestFirst_perm _).symm
  refine hperm.eq_of_pairwise (fun a b ha hb ↦ ?_) ((e.pairwise_latestFirst runs).filter p)
    (e.pairwise_latestFirst _)
  have hmem {r : Run} (hr : r ∈ (e.latestFirst runs).filter p) : r ∈ runs :=
    (e.latestFirst_perm runs).mem_iff.1 (List.mem_filter.1 hr).1
  exact h.eq_of_isLater (hmem ha) (hmem (hperm.mem_iff.2 hb))

/-- The newest time is that of the first of the sorted runs, though it is looked for without regard to
identifiers. -/
theorem Readable.newest?_createdAt (h : e.Readable runs) (he : e.Lawful) :
    (e.newest? runs).map (·.createdAt) = (e.latestFirst runs).head?.map (·.createdAt) := by
  cases hnewest : e.newest? runs with
  | none => simp [newest?_eq_none hnewest, latestFirst]
  | some r =>
    obtain ⟨hr, hmax⟩ := newest?_eq_some hnewest
    cases hhead : (e.latestFirst runs).head? with
    | none =>
      rw [List.head?_eq_none_iff] at hhead
      rw [← (e.latestFirst_perm runs).mem_iff, hhead] at hr
      cases hr
    | some first =>
      obtain ⟨hfirst, hlater⟩ := head?_mergeSort isLater_trans isLater_total hhead
      rw [Option.map_some, Option.map_some, Option.some_inj]
      exact he.eq_of_timeLe (h.tells r hr) (h.tells first hfirst) (isLater_iff.1 (hlater r hr)).1
        (hmax first hfirst)

end Engine

namespace Store

variable {s : Store} {isCanceled : Bool} {runs : List Run}

section Answers

theorem Suited.list_eq (h : s.Suited) (haccess : s.database.access isCanceled = .ok ()) (limit : Int) :
    s.list isCanceled limit =
      (if 0 < limit then (s.engine.latestFirst s.rows).take limit.toNat
        else s.engine.latestFirst s.rows).mapM
          fun r ↦ (Record.ofRun s.engine r).mapError (.within "scanning run") := by
  rw [list, h.tableExists_eq_ok haccess, ok_bind]
  cases hruns : s.database.runs with
  | some runs => rfl
  | none => simp [rows, hruns, Engine.latestFirst]

theorem Suited.status_eq (h : s.Suited) (haccess : s.database.access isCanceled = .ok ()) :
    s.status isCanceled = match s.engine.newest? s.rows with
      | none => .ok { tableExists := s.database.runs.isSome }
      | some r => ((s.engine.readTime 0 "created_at" r.createdAt).mapError
        (.within "querying last run time")).map fun last ↦
          { tableExists := s.database.runs.isSome, runs := s.rows.length
            flows := (s.rows.map (·.flow)).toFinset.card, lastRunAt := some last } := by
  have hcount : (Table.ofList (s.rows.map fun r ↦ (r.flow, ()))).length =
      (s.rows.map (·.flow)).toFinset.card := by
    rw [Table.length_ofList, List.map_map]
    rfl
  rw [status, h.tableExists_eq_ok haccess, ok_bind, ← hcount]
  cases hruns : s.database.runs with
  | none => simp [rows, hruns, Engine.newest?, pure_eq_ok]
  | some runs =>
    simp only [Option.isSome_some, Bool.not_true, Bool.false_eq_true, if_false]
    cases s.engine.newest? s.rows with
    | none => rfl
    | some r =>
      cases (s.engine.readTime 0 "created_at" r.createdAt).mapError
        (Failure.within "querying last run time") <;> rfl

variable {read : Run → Record}

theorem scan_eq_ok (hread : ∀ r ∈ s.rows, Record.ofRun s.engine r = .ok (read r))
    (hsub : ∀ r ∈ runs, r ∈ s.engine.latestFirst s.rows) :
    (runs.mapM fun r ↦ (Record.ofRun s.engine r).mapError (Failure.within "scanning run")) =
      .ok (runs.map read) := by
  refine mapM_eq_ok fun r hr ↦ ?_
  rw [hread r ((s.engine.latestFirst_perm s.rows).mem_iff.1 (hsub r hr))]
  rfl

/-- The latest run of a flow is the first one of its name among the sorted runs of all flows. -/
theorem Suited.last_eq_find? (hs : s.Suited) (haccess : s.database.access isCanceled = .ok ())
    (h : s.engine.Readable s.rows) (hread : ∀ r ∈ s.rows, Record.ofRun s.engine r = .ok (read r))
    (flow : String) :
    s.last isCanceled flow =
      .ok (((s.engine.latestFirst s.rows).map read).find? (·.flow == flow)) := by
  have hmem {r : Run} : r ∈ s.engine.latestFirst s.rows ↔ r ∈ s.rows :=
    (s.engine.latestFirst_perm s.rows).mem_iff
  have hfind : ((s.engine.latestFirst s.rows).map read).find? (·.flow == flow) =
      ((s.engine.latestFirst s.rows).find? (·.flow == flow)).map read := by
    rw [List.find?_map]
    refine congrArg (Option.map read) (List.find?_congr fun r hr ↦ ?_)
    have hflow : (read r).flow = r.flow := (Record.ofRun_eq_ok (hread r (hmem.1 hr))).2.2.1
    rw [Function.comp_apply, hflow]
  rw [hs.last_eq_head haccess, ← h.filter_latestFirst, List.head?_filter, hfind]
  cases hfound : (s.engine.latestFirst s.rows).find? (·.flow == flow) with
  | none => rfl
  | some r =>
    simp only [hread r (hmem.1 (List.mem_of_find?_eq_some hfound))]
    rfl

theorem Suited.status_eq_ok (hs : s.Suited) (haccess : s.database.access isCanceled = .ok ())
    (h : s.engine.Readable s.rows) (hread : ∀ r ∈ s.rows, Record.ofRun s.engine r = .ok (read r)) :
    s.status isCanceled = .ok
      { tableExists := s.database.runs.isSome
        runs := ((s.engine.latestFirst s.rows).map read).length
        flows := (((s.engine.latestFirst s.rows).map read).map (·.flow)).toFinset.card
        lastRunAt := ((s.engine.latestFirst s.rows).map read).head?.map (·.createdAt) } := by
  have hmem {r : Run} : r ∈ s.engine.latestFirst s.rows ↔ r ∈ s.rows :=
    (s.engine.latestFirst_perm s.rows).mem_iff
  have hflows : ((s.engine.latestFirst s.rows).map read).map (·.flow) =
      (s.engine.latestFirst s.rows).map (·.flow) := by
    rw [List.map_map]
    exact List.map_congr_left fun r hr ↦ (Record.ofRun_eq_ok (hread r (hmem.1 hr))).2.2.1
  have hnames : ((s.engine.latestFirst s.rows).map (·.flow)).toFinset = (s.rows.map (·.flow)).toFinset :=
    List.toFinset_eq_of_perm _ _ ((s.engine.latestFirst_perm s.rows).map _)
  have htimes : ((s.engine.latestFirst s.rows).map read).head?.map (·.createdAt) =
      (s.engine.newest? s.rows).map (·.createdAt) := by
    rw [h.newest?_createdAt hs.lawful, List.head?_map, Option.map_map]
    refine Option.map_congr fun r hr ↦ ?_
    have hrow : r ∈ s.rows := hmem.1 (List.mem_of_mem_head? hr)
    obtain ⟨-, -, -, htime⟩ := Record.ofRun_eq_ok (hread r hrow)
    rw [hs.lawful.readTime_eq (h.tells r hrow)] at htime
    exact (Except.ok.inj htime).symm
  rw [hs.status_eq haccess, hflows, hnames, htimes, List.length_map,
    (s.engine.latestFirst_perm s.rows).length_eq]
  cases hnewest : s.engine.newest? s.rows with
  | none => simp [Engine.newest?_eq_none hnewest]
  | some r =>
    simp only [hs.lawful.readTime_eq (h.tells r (Engine.newest?_eq_some hnewest).1)]
    rfl

end Answers

/-- All ways to ask for runs agree, on any lawful database that the store speaks the dialect of. The whole
list is that of the rows, sorted strictly by time and then by identifier, the newest first; a limit takes
the first of these; the latest run of a flow is the first of the list with its name, if there is one; and
the summary counts the runs and the names in the list and tells the time of its first run. Where there is no
table all of this is empty. -/
theorem queries_agree (hs : s.Suited) (haccess : s.database.access isCanceled = .ok ())
    (h : s.engine.Readable s.rows) :
    ∃ records : List Record,
      (∀ limit ≤ 0, s.list isCanceled limit = .ok records) ∧
      (∃ sorted : List Run, sorted.Perm s.rows ∧ sorted.Pairwise s.engine.Newer ∧
        sorted.mapM (Record.ofRun s.engine) = .ok records) ∧
      (∀ limit > 0, s.list isCanceled limit = .ok (records.take limit.toNat)) ∧
      (∀ flow, s.last isCanceled flow = .ok (records.find? (·.flow == flow))) ∧
      s.status isCanceled = .ok
        { tableExists := s.database.runs.isSome, runs := records.length
          flows := (records.map (·.flow)).toFinset.card
          lastRunAt := records.head?.map (·.createdAt) } ∧
      (s.database.runs = none → records = []) := by
  have hdecodes := h.decodes
  choose! read hread using hdecodes
  have hperm := s.engine.latestFirst_perm s.rows
  refine ⟨(s.engine.latestFirst s.rows).map read, fun limit hlimit ↦ ?_, ?_, fun limit hlimit ↦ ?_,
    hs.last_eq_find? haccess h hread, hs.status_eq_ok haccess h hread, fun hnone ↦ ?_⟩
  · rw [hs.list_eq haccess, if_neg (by omega), scan_eq_ok hread fun r hr ↦ hr]
  · refine ⟨s.engine.latestFirst s.rows, hperm, h.pairwise_newer hs.lawful, mapM_eq_ok fun r hr ↦ ?_⟩
    exact hread r (hperm.mem_iff.1 hr)
  · rw [hs.list_eq haccess, if_pos hlimit, scan_eq_ok hread fun r hr ↦ List.mem_of_mem_take hr,
      List.map_take]
  · simp [rows, hnone, Engine.latestFirst]

def sharedTimes : List Record :=
  let refund : Analysis := .node { name := "Refund" } []
  [.ofAnalysis "00000000-0000-4000-8000-000000000001" "a" { seconds := 5 } orderAnalysis,
    .ofAnalysis "00000000-0000-4000-8000-000000000002" "b" { seconds := 5 } refund,
    .ofAnalysis "00000000-0000-4000-8000-000000000003" "c" { seconds := 4 } orderAnalysis]

theorem readable_sharedTimes {e : Engine} (he : e.Lawful) : e.Readable (sharedTimes.map (·.toRun)) := by
  have hread : ∀ r ∈ sharedTimes, Uuid.normalize? r.id = some r.id ∧ r.createdAt.IsReading ∧
      r.createdAt.nanos = 0 ∧ (∀ n ∈ r.analysis.nodes, n.IsSound) ∧ r.analysis.unwritable? = none := by
    decide
  have htells : ∀ r ∈ sharedTimes, e.Tells r.createdAt := by
    intro r hr
    obtain ⟨-, hreading, hnanos, -⟩ := hread r hr
    exact ⟨hreading, hnanos ▸ dvd_zero _⟩
  refine ⟨by decide, ?_, ?_⟩ <;> simp only [List.forall_mem_map] <;> intro r hr
  · obtain ⟨hid, -, -, hsound, hwritable⟩ := hread r hr
    exact ⟨_, Record.ofRun_toRun he hid (htells r hr) (Record.decode_compact hsound hwritable)⟩
  · exact htells r hr

theorem shared_times_agree :
    let s : Store :=
      { database.runs := some (sharedTimes.map (·.toRun)), engine := .postgres, dialect := .postgres }
    s.Suited ∧ s.database.access false = .ok () ∧ s.engine.Readable s.rows ∧
      ∃ records, s.list false 0 = .ok records ∧ s.list false 1 = .ok (records.take 1) ∧
        s.last false "Order" = .ok (records.find? (·.flow == "Order")) ∧
        s.status false = .ok
          { tableExists := true, runs := records.length
            flows := (records.map (·.flow)).toFinset.card
            lastRunAt := records.head?.map (·.createdAt) } := by
  intro s
  have hsuited : s.Suited := ⟨Engine.lawful_postgres, rfl⟩
  have haccess : s.database.access false = .ok () := rfl
  have hreadable : s.engine.Readable s.rows := readable_sharedTimes Engine.lawful_postgres
  obtain ⟨records, hall, -, hlimit, hlast, hstatus, -⟩ := queries_agree hsuited haccess hreadable
  exact ⟨hsuited, haccess, hreadable, records, hall 0 le_rfl, hlimit 1 Int.one_pos, hlast "Order", hstatus⟩

end Store

end FlowAudit
