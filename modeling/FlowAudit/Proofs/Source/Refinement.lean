import FlowAudit.Proofs.Success
import FlowAudit.Proofs.Table
import FlowAudit.Proofs.Text.Utf8
import FlowAudit.Proofs.Time.Text
import FlowAudit.Source.Basic
import FlowAudit.Source.Stored
import Mathlib.Data.List.Sort

namespace FlowAudit

theorem Format.ofWord?_name (f : Format) : ofWord? f.name = some f := by
  cases f <;> decide

namespace Time

/-- Times that a column gives back: those of years of four digits that are told in a zone of a known name,
or less than 24 minutes from UTC in one that has none. -/
def IsReadable (t : Time) (zone : String) : Prop :=
  0 ≤ t.year ∧ t.year ≤ 9999 ∧
    if zone = "" then t.offset.natAbs < 24 * 60 else t.offset.natAbs < 25 * 3600 ∧ isZoneName zone = true

instance (t : Time) (zone : String) : Decidable (t.IsReadable zone) :=
  inferInstanceAs (Decidable (_ ∧ _ ∧ if zone = "" then _ else _))

theorem isZoneName_of_sign {sign : Char} (hsign : sign = '+' ∨ sign = '-') {digits : List Char}
    (hlength : 2 ≤ digits.length) :
    isZoneName (String.ofList (sign :: digits)) = (Text.readDigits? 10 digits).any (· ≤ 23) := by
  rcases hsign with rfl | rfl <;> simp [isZoneName, isSignedHour, hlength]

theorem isZoneName_zoneDigits {offset : Int} (h : offset.natAbs < 25 * 3600) :
    isZoneName (zoneDigits offset) = decide (offset.natAbs < 24 * 60) := by
  obtain ⟨k, hk⟩ : ∃ k, offset.natAbs / 60 = k := ⟨_, rfl⟩
  have hsmall : k / 60 * 100 + k % 60 < 10 ^ 4 := by omega
  have hdigits : (Text.padded 2 (k / 60) ++ Text.padded 2 (k % 60)).toList =
      (Text.padded 4 (k / 60 * 100 + k % 60)).toList := by
    have hhour : (k / 60 * 100 + k % 60) / 100 = k / 60 := by omega
    have hminute : (k / 60 * 100 + k % 60) % 100 = k % 60 := by omega
    rw [String.toList_append, Text.padded_two (by omega), Text.padded_two (by omega),
      padded_four (by omega), hhour, hminute]
    rfl
  have hhours : k / 60 * 100 + k % 60 ≤ 23 ↔ offset.natAbs < 24 * 60 := by omega
  have hword {sign : Char} (hsign : sign = '+' ∨ sign = '-') :
      isZoneName (String.ofList (sign :: (Text.padded 2 (k / 60) ++ Text.padded 2 (k % 60)).toList)) =
        decide (offset.natAbs < 24 * 60) := by
    have hlength := Text.length_padded (by decide) hsmall
    rw [hdigits, isZoneName_of_sign hsign (by omega), Text.readDigits?_padded, Option.any_some,
      decide_eq_decide]
    exact hhours
  have hcons (sign : Char) (s : String) : String.ofList (sign :: s.toList) = String.ofList [sign] ++ s := by
    rw [← String.toList_inj]
    simp
  simp only [zoneDigits, hk, String.append_assoc]
  split
  · exact (congrArg isZoneName (hcons '-' _)).symm.trans (hword (.inr rfl))
  · exact (congrArg isZoneName (hcons '+' _)).symm.trans (hword (.inl rfl))

theorem readBack_eq (t : Time) (zone : String) (index : Nat) (column : String) :
    t.readBack zone index column =
      if t.IsReadable zone then .ok (t.restored zone) else .error (.database (.unreadableTime index column)) := by
  have hzone : t.offset.natAbs < 25 * 3600 ∧ isZoneName (zoneName zone t.offset) = true ↔
      if zone = "" then t.offset.natAbs < 24 * 60
      else t.offset.natAbs < 25 * 3600 ∧ isZoneName zone = true := by
    by_cases hname : zone = ""
    · subst hname
      by_cases hutc : t.offset = 0
      · simp [zoneName, hutc]
        decide
      · have hdigits : zoneName "" t.offset = zoneDigits t.offset := by simp [zoneName, hutc]
        rw [hdigits, if_pos rfl]
        constructor
        · intro ⟨hday, hword⟩
          rw [isZoneName_zoneDigits hday] at hword
          exact of_decide_eq_true hword
        · intro hminutes
          have hday : t.offset.natAbs < 25 * 3600 := by omega
          exact ⟨hday, (isZoneName_zoneDigits hday).trans (decide_eq_true hminutes)⟩
    · simp [zoneName, hname]
  rw [readBack]
  exact if_congr (and_congr_right' (and_congr_right' hzone)) rfl rfl

end Time

namespace Database

/-- A definition that is put into a source at a time. -/
structure Put where
  definition : Definition
  now : Time
  /-- The name of the zone that the definition was changed in, if it has one. -/
  zone : String := ""

namespace Put

variable (p : Put)

def name : String := p.definition.name

def modified : Time :=
  if p.definition.version.lastModified.isZero then p.now else p.definition.version.lastModified

def modifiedZone : String := if p.definition.version.lastModified.isZero then "" else p.zone

def row (old : Option StoredDefinition) : StoredDefinition :=
  { version := match old with
      | some old => min (old.version + 1) pastWords
      | none => max 1 p.definition.version.version
    status := p.definition.version.status, lastModified := p.modified, zone := p.modifiedZone
    format := p.definition.format, body := p.definition.content }

end Put

variable {db : Database} {t : Table StoredDefinition} {p first : Put} {ps later : List Put} {name : String}

def putAll (db : Database) (ps : List Put) : Except Failure Database :=
  ps.foldlM (fun db p ↦ db.putDefinition false p.now p.definition p.zone) db

def tableOf (t : Table StoredDefinition) (ps : List Put) : Table StoredDefinition :=
  Table.updated Put.name (fun old p ↦ p.row old) t ps

theorem putDefinition_eq_ok (haccess : db.access false = .ok ()) (htable : db.definitions = some t) :
    db.putDefinition false p.now p.definition p.zone =
      .ok { db with definitions := some (Table.insert p.name (p.row (t.get? p.name)) t) } := by
  have hversion : (if p.definition.version.version < 1 then 1 else p.definition.version.version) =
      max 1 p.definition.version.version := by
    split <;> omega
  simp only [putDefinition, haccess, needDefinitions, htable, Except.mapError, ok_bind, hversion]
  rfl

theorem putAll_eq_ok (haccess : db.access false = .ok ()) (htable : db.definitions = some t) :
    db.putAll ps = .ok { db with definitions := some (tableOf t ps) } := by
  induction ps generalizing db t with
  | nil =>
    rw [tableOf, Table.updated, List.foldl_nil, ← htable]
    rfl
  | cons p ps ih =>
    rw [putAll, List.foldlM_cons, putDefinition_eq_ok haccess htable, ok_bind, ← putAll]
    exact ih haccess rfl

theorem foldl_row (hword : first.definition.version.version < pastWords) (later : List Put) :
    (first :: later).foldl (fun old p ↦ some (p.row old)) none =
      some { version := min (max 1 first.definition.version.version + later.length) pastWords
             status := (later.getLastD first).definition.version.status
             lastModified := (later.getLastD first).modified
             zone := (later.getLastD first).modifiedZone
             format := (later.getLastD first).definition.format
             body := (later.getLastD first).definition.content } := by
  have hone : (1 : Int) < pastWords := by decide
  induction later using List.reverseRecOn with
  | nil =>
    have hmin : min (max 1 first.definition.version.version) pastWords =
        max 1 first.definition.version.version := by omega
    simp only [List.foldl_cons, List.foldl_nil, Put.row, List.getLastD_nil, List.length_nil,
      Int.natCast_zero, Int.add_zero, hmin]
  | append_singleton later p ih =>
    have hmin : min (min (max 1 first.definition.version.version + later.length) pastWords + 1) pastWords =
        min (max 1 first.definition.version.version + (later.length + 1)) pastWords := by omega
    rw [← List.cons_append, List.foldl_append, ih]
    simp [Put.row, hmin]

def fetched (name : String) (d : StoredDefinition) : Definition :=
  { name := name, format := d.format, content := d.body, origin := definitionsTable
    version := { version := d.version, status := d.status, lastModified := d.lastModified.restored d.zone } }

theorem fetchDefinition_eq_notFound (haccess : db.access false = .ok ()) (htable : db.definitions = some t)
    (hmissing : t.get? name = none) : db.fetchDefinition false name = .error (.notFound name) := by
  simp only [fetchDefinition, findDefinition, haccess, needDefinitions, htable, ok_bind, hmissing,
    Except.mapError, pure_eq_ok]
  rfl

theorem findDefinition_eq (haccess : db.access false = .ok ()) (htable : db.definitions = some t)
    {d : StoredDefinition} (hfound : t.get? name = some d) :
    db.findDefinition false name =
      if pastWords ≤ d.version then .error (.database (.unreadableNumber 0 "version"))
      else if d.lastModified.IsReadable d.zone then .ok (some (d, d.lastModified.restored d.zone))
      else .error (.database (.unreadableTime 2 "last_modified")) := by
  simp only [findDefinition, haccess, needDefinitions, htable, ok_bind, hfound, Time.readBack_eq]
  split
  · rfl
  · split <;> rfl

theorem fetchDefinition_of_readable (haccess : db.access false = .ok ()) (htable : db.definitions = some t)
    {d : StoredDefinition} {f : Format} (hfound : t.get? name = some d) (hformat : d.format = f.name)
    (hversion : d.version < pastWords) (hreadable : d.lastModified.IsReadable d.zone) :
    db.fetchDefinition false name = .ok (fetched name d) := by
  rw [fetchDefinition, findDefinition_eq haccess htable hfound, if_neg (not_le.2 hversion),
    if_pos hreadable]
  simp only [Except.mapError, ok_bind, hformat, Format.ofWord?_name, fetched]
  rfl

theorem fetchDefinition_of_unreadable (haccess : db.access false = .ok ())
    (htable : db.definitions = some t) {d : StoredDefinition} (hfound : t.get? name = some d)
    (hlost : ¬(d.version < pastWords ∧ d.lastModified.IsReadable d.zone)) :
    ∃ context e, db.fetchDefinition false name = .error (.within context (.database e)) := by
  rw [fetchDefinition, findDefinition_eq haccess htable hfound]
  split
  · exact ⟨_, _, rfl⟩
  · next hversion =>
    rw [if_neg fun hreadable ↦ hlost ⟨not_le.1 hversion, hreadable⟩]
    exact ⟨_, _, rfl⟩

section Both

def putsOf (name : String) (ps : List Put) : List Put := ps.filter (·.name == name)

theorem mem_of_putsOf {first : Put} (h : putsOf name ps = first :: later) {p : Put}
    (hp : p ∈ first :: later) : p ∈ ps :=
  List.mem_of_mem_filter (h ▸ hp : p ∈ putsOf name ps)

def memoryOf (ps : List Put) : Memory := .ofList (ps.map (·.definition))

theorem flows_memoryOf (ps : List Put) :
    (memoryOf ps).flows = Table.updated Put.name (fun _ p ↦ p.definition) [] ps := by
  have hfold (m : Memory) : ((ps.map (·.definition)).foldl Memory.put m).flows =
      Table.updated Put.name (fun _ p ↦ p.definition) m.flows ps := by
    induction ps generalizing m with
    | nil => rfl
    | cons p ps ih => exact ih (m.put p.definition)
  exact hfold {}

theorem foldl_definition (first : Put) (later : List Put) (o : Option Definition) :
    (first :: later).foldl (fun _ p ↦ some p.definition) o = some (later.getLastD first).definition := by
  induction later generalizing first o with
  | nil => rfl
  | cons p later ih => rw [List.foldl_cons, ih, List.getLastD_cons]

theorem keys_memoryOf (ps : List Put) :
    (memoryOf ps).flows.keys = (tableOf [] ps).keys ∧
      ((tableOf [] ps).keys.Pairwise fun a b ↦ Text.Utf8.encode a.toList < Text.Utf8.encode b.toList) ∧
      ∀ name, name ∈ (tableOf [] ps).keys ↔ ∃ p ∈ ps, p.name = name := by
  have hsorted : (tableOf [] ps).keys.Pairwise (· < ·) :=
    Table.pairwise_keys (Table.isSorted_updated _ _ .nil ps)
  have hsorted' : (memoryOf ps).flows.keys.Pairwise (· < ·) := by
    rw [flows_memoryOf]
    exact Table.pairwise_keys (Table.isSorted_updated _ _ .nil ps)
  have hmem (name : String) : name ∈ (tableOf [] ps).keys ↔ ∃ p ∈ ps, p.name = name := by
    rw [tableOf, Table.mem_keys_updated]
    exact or_iff_right List.not_mem_nil
  have hmem' (name : String) : name ∈ (memoryOf ps).flows.keys ↔ ∃ p ∈ ps, p.name = name := by
    rw [flows_memoryOf, Table.mem_keys_updated]
    exact or_iff_right List.not_mem_nil
  refine ⟨hsorted'.eq_of_mem_iff hsorted fun name ↦ (hmem' name).trans (hmem name).symm, ?_, hmem⟩
  exact hsorted.imp fun h ↦ Text.Utf8.encode_lt_encode_iff.2 (String.lt_iff_toList_lt.1 h)

/-- Definitions of the known formats are put into a table of a database, which is empty at first, and into
memory. Both list the same names in the order of their bytes. A name that was not put is missing from
both, and for any other memory has the last definition. The table has it too, with its format, content and
status and a version that counts on from the first one, exactly if that version fits into a word and the
time of the last definition can be read back; otherwise the database fails. -/
theorem stored_refines_held (haccess : db.access false = .ok ()) (htable : db.definitions = some [])
    (hformat : ∀ p ∈ ps, ∃ f : Format, p.definition.format = f.name)
    (hword : ∀ p ∈ ps, p.definition.version.version < pastWords) :
    ∃ db', db.putAll ps = .ok db' ∧
      let stored := db'.source false
      let held := (memoryOf ps).source none
      (∃ names, stored.list? = some (.ok names) ∧ held.list? = some (.ok names) ∧
        (names.Pairwise fun a b ↦ Text.Utf8.encode a.toList < Text.Utf8.encode b.toList) ∧
        ∀ name, name ∈ names ↔ ∃ p ∈ ps, p.name = name) ∧
      ∀ name,
        (putsOf name ps = [] → stored.fetch name = .error (.notFound name) ∧
          held.fetch name = .error (.notFound name)) ∧
        ∀ first later, putsOf name ps = first :: later →
          let last := later.getLastD first
          let version := max 1 first.definition.version.version + later.length
          held.fetch name = .ok last.definition ∧
          (version < pastWords ∧ last.modified.IsReadable last.modifiedZone → ∃ d, stored.fetch name = .ok d ∧
            d.format = last.definition.format ∧ d.content = last.definition.content ∧
            d.version.status = last.definition.version.status ∧ d.version.version = version) ∧
          (¬(version < pastWords ∧ last.modified.IsReadable last.modifiedZone) →
            ∃ context e, stored.fetch name = .error (.within context (.database e))) := by
  refine ⟨_, putAll_eq_ok haccess htable, ?_⟩
  intro stored held
  have haccess' : Database.access { db with definitions := some (tableOf [] ps) } false = .ok () := haccess
  have hstored (name : String) : (tableOf [] ps).get? name =
      (putsOf name ps).foldl (fun old p ↦ some (p.row old)) none := Table.get?_updated _ _ _ _ _
  have hheld (name : String) : (memoryOf ps).flows.get? name =
      (putsOf name ps).foldl (fun _ p ↦ some p.definition) none := by
    rw [flows_memoryOf]
    exact Table.get?_updated _ _ _ _ _
  refine ⟨⟨(tableOf [] ps).keys, ?_, ?_, (keys_memoryOf ps).2⟩, fun name ↦ ⟨fun hputs ↦ ⟨?_, ?_⟩,
    fun first later hputs ↦ ?_⟩⟩
  · simp only [stored, source, listDefinitions, haccess', Except.mapError, needDefinitions]
    rfl
  · simp only [held, Memory.source, (keys_memoryOf ps).1]
  · exact fetchDefinition_eq_notFound haccess' rfl (by rw [hstored, hputs]; rfl)
  · simp only [held, Memory.source, Memory.fetch, hheld, hputs, List.foldl_nil]
  · intro last version
    have hrow := foldl_row (hword first (mem_of_putsOf hputs List.mem_cons_self)) later
    rw [← hputs, ← hstored] at hrow
    have hfits : min version pastWords < pastWords ↔ version < pastWords := by omega
    refine ⟨?_, fun ⟨hversion, hreadable⟩ ↦ ?_, fun hlost ↦ ?_⟩
    · simp only [held, Memory.source, Memory.fetch, hheld, hputs, foldl_definition, last]
    · obtain ⟨f, hf⟩ := hformat last (mem_of_putsOf hputs List.getLastD_mem_cons)
      exact ⟨_, fetchDefinition_of_readable haccess' rfl hrow hf (hfits.2 hversion) hreadable, rfl, rfl, rfl,
        min_eq_left_of_lt hversion⟩
    · exact fetchDefinition_of_unreadable haccess' rfl hrow fun h ↦ hlost ⟨hfits.1 h.1, h.2⟩

def changed (name : String) (version offset : Int) (zone : String := "") : Put :=
  let modified : Time := { seconds := 1700000000, offset := offset }
  { definition := { name := name, format := "json", version := ⟨version, "Active", modified⟩ }
    now := .zero, zone := zone }

/-- Of four definitions the one of UTC is found in its second version, and one that was changed in a zone
with a name is found too; one that was changed in a zone without a name five and a half hours from UTC and one
that has used up the versions are lost. -/
theorem definitions_lost_in_table :
    let ps := [changed "Order" 7 0, changed "Zoned" 1 19800, changed "Order" 1 0,
      changed "Counted" (pastWords - 1) 0, changed "Counted" 1 0, changed "Named" 3 19800 "IST"]
    (∀ p ∈ ps, p.definition.format = Format.json.name ∧ p.definition.version.version < pastWords) ∧
    ∃ db', putAll { definitions := some [] } ps = .ok db' ∧
      (∃ d, db'.fetchDefinition false "Order" = .ok d ∧ d.version.version = 8) ∧
      (∃ d, db'.fetchDefinition false "Named" = .ok d ∧ d.version.version = 3) ∧
      (∃ context e, db'.fetchDefinition false "Zoned" = .error (.within context (.database e))) ∧
      ∃ context e, db'.fetchDefinition false "Counted" = .error (.within context (.database e)) := by
  intro ps
  have hps : ∀ p ∈ ps, p.definition.format = Format.json.name ∧
      p.definition.version.version < pastWords := by decide
  obtain ⟨db', hput, -, hfetch⟩ := @stored_refines_held { definitions := some [] } ps rfl rfl
    (fun p hp ↦ ⟨.json, (hps p hp).1⟩) fun p hp ↦ (hps p hp).2
  obtain ⟨d, hd, -, -, -, hversion⟩ := ((hfetch "Order").2 (changed "Order" 7 0)
    [changed "Order" 1 0] (by rfl)).2.1 (by decide)
  obtain ⟨d', hd', -, -, -, hversion'⟩ := ((hfetch "Named").2 (changed "Named" 3 19800 "IST")
    [] (by rfl)).2.1 (by decide)
  exact ⟨hps, db', hput, ⟨d, hd, hversion⟩, ⟨d', hd', hversion'⟩,
    ((hfetch "Zoned").2 (changed "Zoned" 1 19800) [] (by rfl)).2.2 (by decide),
    ((hfetch "Counted").2 (changed "Counted" (pastWords - 1) 0) [changed "Counted" 1 0] (by rfl)).2.2
      (by decide)⟩

end Both

end Database

end FlowAudit
