import FlowAudit.Proofs.Fingerprint.Counted

namespace FlowAudit.Fingerprint

/-- What enters a checksum of a flow below. -/
structure Entry where
  name : String
  /-- The number of the version, and the seconds and nanoseconds of its time. -/
  version : Option (Int × Int × Nat)
  deriving Repr, DecidableEq

namespace Entry

def of (a : Analysis) : Entry :=
  { name := a.name
    version := a.findings.version.map fun v ↦
      (v.version, v.lastModified.seconds, v.lastModified.nanos) }

def text (e : Entry) : String :=
  match e.version with
  | none => e.name
  | some (number, seconds, nanos) =>
    e.name ++ "@" ++ Text.decimalInt number ++ "@" ++ (Time.mk seconds nanos 0).text

/-- The zone of a time does not count. -/
theorem text_of (a : Analysis) : (of a).text = part a.findings := by
  cases h : a.findings.version with
  | none => simp only [text, of, part, h, Option.map_none, Analysis.name]
  | some v => simp only [text, of, part, h, Option.map_some, Analysis.name, Time.toUtc]

end Entry

/-- The flows below that have the same name have the same version, and call flows of the same names.
This is so if they are equal. -/
structure NamesTell (a : Analysis) : Prop where
  entry : ∀ m ∈ a.descendants, ∀ n ∈ a.descendants, m.name = n.name → Entry.of m = Entry.of n
  calls : ∀ m ∈ a.descendants, ∀ n ∈ a.descendants, m.name = n.name → ∀ b, some b ∈ n.children →
    ∃ d, some d ∈ m.children ∧ d.name = b.name

variable {a b : Analysis}

theorem namesTell_of_eq (h : ∀ m ∈ a.descendants, ∀ n ∈ a.descendants, m.name = n.name → m = n) :
    NamesTell a where
  entry m hm n hn hname := congrArg Entry.of (h m hm n hn hname)
  calls m hm n hn hname c hc := ⟨c, h m hm n hn hname ▸ hc, rfl⟩

theorem mem_descendants_of_mem_counted {n : Analysis} (h : n ∈ counted a) : n ∈ a.descendants :=
  Analysis.mem_descendants_iff.2 (mem_nodes_of_mem_countedIn h)

theorem NamesTell.exists_counted (h : NamesTell a) {n : Analysis} (hn : n ∈ a.descendants) :
    ∃ m ∈ counted a, m.name = n.name := by
  obtain ⟨b, hb, hn⟩ := Analysis.mem_descendants_iff.1 hn
  obtain ⟨hmet, hclosed⟩ := isClosed_countedIn [] a.children
  refine hclosed.exists_mem (fun m hm c hc hname ↦ ?_) ((hmet b hb).resolve_left List.not_mem_nil) n hn
  exact h.calls m (mem_descendants_of_mem_counted hm) c (Analysis.mem_descendants_iff.2 ⟨b, hb, hc⟩) hname

theorem NamesTell.mem_entries_iff (h : NamesTell a) (e : Entry) :
    e ∈ (counted a).map Entry.of ↔ e ∈ a.descendants.map Entry.of := by
  simp only [List.mem_map]
  constructor
  · rintro ⟨n, hn, rfl⟩
    exact ⟨n, mem_descendants_of_mem_counted hn, rfl⟩
  · rintro ⟨n, hn, rfl⟩
    obtain ⟨m, hm, hname⟩ := h.exists_counted hn
    exact ⟨m, hm, h.entry m (mem_descendants_of_mem_counted hm) n hn hname⟩

theorem nodup_entries (a : Analysis) : ((counted a).map Entry.of).Nodup := by
  refine List.Nodup.of_map Entry.name ?_
  rw [List.map_map]
  exact (nodup_countedIn [] a.children).1

theorem parts_eq_map_text (a : Analysis) :
    parts a = (((counted a).map Entry.of).map Entry.text).mergeSort (· ≤ ·) := by
  rw [parts_eq, List.map_map]
  simp only [Function.comp_def, Entry.text_of]

theorem mergeSort_eq_of_perm {ps qs : List String} (h : ps.Perm qs) :
    ps.mergeSort (· ≤ ·) = qs.mergeSort (· ≤ ·) := by
  have hsorted (l : List String) : (l.mergeSort (· ≤ ·)).Pairwise (· ≤ ·) := by
    have h : (l.mergeSort (· ≤ ·)).Pairwise (fun s t ↦ decide (s ≤ t) = true) :=
      l.pairwise_mergeSort (by simpa using fun _ _ _ ↦ String.le_trans)
        (by simpa using String.le_total)
    simpa using h
  refine List.Perm.eq_of_pairwise (fun s t _ _ ↦ String.le_antisymm) (hsorted ps) (hsorted qs) ?_
  exact (List.mergeSort_perm _ _).trans (h.trans (List.mergeSort_perm _ _).symm)

/-- Two analyses have the same checksum for the same definition if the same flows are below them in the
same versions, however these are ordered, repeated and nested. -/
theorem checksum_eq_of_same_entries (content : List UInt8) (ha : NamesTell a) (hb : NamesTell b)
    (h : ∀ e, e ∈ a.descendants.map Entry.of ↔ e ∈ b.descendants.map Entry.of) :
    compute content (some a) = compute content (some b) := by
  have hperm : ((counted a).map Entry.of).Perm ((counted b).map Entry.of) := by
    rw [List.perm_ext_iff_of_nodup (nodup_entries a) (nodup_entries b)]
    intro e
    rw [ha.mem_entries_iff, h, hb.mem_entries_iff]
  have hparts : parts a = parts b := by
    rw [parts_eq_map_text, parts_eq_map_text]
    exact mergeSort_eq_of_perm (hperm.map Entry.text)
  rw [compute, compute, Option.map_some, Option.map_some, hparts]

def datedFlow (offset : Int) : Analysis :=
  .node { name := "Notify"
          version := some { version := 2, lastModified := { seconds := 1700000000, offset := offset } } } []

def callerOf (name : String) (called : List Analysis) : Analysis :=
  .node { name := name } (called.map some)

/-- One is called by the other, before or after it is called directly. The times of its version are told
in different zones. -/
theorem nested_calls_checksum_eq :
    let a := callerOf "Main" [callerOf "Approve" [datedFlow 0], datedFlow 0]
    let b := callerOf "Main" [datedFlow 3600, callerOf "Approve" [datedFlow 3600, datedFlow 3600]]
    NamesTell a ∧ NamesTell b ∧ (∀ e, e ∈ a.descendants.map Entry.of ↔ e ∈ b.descendants.map Entry.of) ∧
      compute [] (some a) = compute [] (some b) := by
  intro a b
  have ha : NamesTell a := namesTell_of_eq <| by
    have hbelow : a.descendants = [callerOf "Approve" [datedFlow 0], datedFlow 0, datedFlow 0] := rfl
    simp [hbelow, callerOf, datedFlow, Analysis.name, Analysis.findings]
  have hb : NamesTell b := namesTell_of_eq <| by
    have hbelow : b.descendants = [datedFlow 3600, callerOf "Approve" [datedFlow 3600, datedFlow 3600],
      datedFlow 3600, datedFlow 3600] := rfl
    simp [hbelow, callerOf, datedFlow, Analysis.name, Analysis.findings]
  have hsame (e : Entry) : e ∈ a.descendants.map Entry.of ↔ e ∈ b.descendants.map Entry.of := by
    have hab : ∀ e ∈ a.descendants.map Entry.of, e ∈ b.descendants.map Entry.of := by decide
    have hba : ∀ e ∈ b.descendants.map Entry.of, e ∈ a.descendants.map Entry.of := by decide
    exact ⟨hab e, hba e⟩
  exact ⟨ha, hb, hsame, checksum_eq_of_same_entries [] ha hb hsame⟩

end FlowAudit.Fingerprint
