import FlowAudit.Proofs.Fingerprint.Counted
import FlowAudit.Proofs.Fingerprint.Message
import FlowAudit.Proofs.Resolution.Memo
import FlowAudit.Proofs.Resolution.Revision
import FlowAudit.Store.Basic

namespace FlowAudit

/-- Two sequences of bytes that are not told apart by their digests. -/
def Sha256.Collide (m m' : List UInt8) : Prop :=
  m ≠ m' ∧ Sha256.hexDigest m = Sha256.hexDigest m'

def Version.same (v v' : Version) : Bool :=
  v.version == v'.version && v.lastModified.same v'.lastModified

namespace Fingerprint

variable {a : Analysis} {name : String} {v old : Version} {content : List UInt8}
  {w : String → Option Version → Option Version}

/-- An analysis of the flow counts, and tells a version of it. -/
def ShowsVersion (a : Analysis) (name : String) : Prop :=
  ∃ n ∈ counted a, n.name = name ∧ n.findings.version ≠ none

instance (a : Analysis) (name : String) : Decidable (ShowsVersion a name) :=
  inferInstanceAs (Decidable (∃ n ∈ counted a, n.name = name ∧ n.findings.version ≠ none))

theorem parts_reviseBelow (a : Analysis) : parts (a.reviseBelow w name v) =
    ((counted a).map fun n ↦ part (n.findings.mapVersion (versionRevised name v))).mergeSort (· ≤ ·) := by
  have hcounted : counted (a.reviseBelow w name v) = (counted a).map (·.revise name v) :=
    countedIn_mapAll (g := Findings.mapVersion (versionRevised name v)) (fun _ ↦ rfl) [] a.children
  have hfindings (n : Analysis) : (n.revise name v).findings =
      n.findings.mapVersion (versionRevised name v) := Analysis.findings_mapAll n
  rw [parts_eq, hcounted, List.map_map]
  simp only [Function.comp_def, hfindings]

theorem mapVersion_eq_self {f : Findings} (h : f.name = name → f.version = none) :
    f.mapVersion (versionRevised name v) = f := by
  have hversion : versionRevised name v f.name f.version = f.version := by
    rw [versionRevised]
    split
    · next heq => rw [h heq]; rfl
    · rfl
  rw [Findings.mapVersion, hversion]

/-- What is digested changes with the version of a flow if it is told, and only then. -/
theorem message_reviseBelow_eq_iff (hold : ∀ n ∈ counted a, n.name = name →
      n.findings.version ≠ none → n.findings.version = some old)
    (hnanos : old.lastModified.nanos < 10 ^ 9) (hnanos' : v.lastModified.nanos < 10 ^ 9)
    (hchange : old.same v = false) :
    message content a = message content (a.reviseBelow w name v) ↔ ¬ShowsVersion a name := by
  constructor
  · rintro hmessage ⟨n, hn, hname, hversion⟩
    have hsome := hold n hn hname hversion
    obtain ⟨before, after, hsplit⟩ := List.append_of_mem hn
    have hnodup := (nodup_countedIn [] a.children).1
    rw [← counted, hsplit, List.map_append, List.map_cons, List.nodup_middle, List.nodup_cons,
      ← List.map_append] at hnodup
    -- All others that count have other names, so they tell what they told.
    have hother : ∀ m ∈ before ++ after,
        part (m.findings.mapVersion (versionRevised name v)) = part m.findings := by
      intro m hm
      have hne : m.name ≠ name := fun heq ↦
        hnodup.1 (List.mem_map.2 ⟨m, hm, heq.trans hname.symm⟩)
      rw [mapVersion_eq_self fun heq ↦ absurd heq hne]
    have hpart : part (n.findings.mapVersion (versionRevised name v)) =
        n.findings.name ++ versionText v := by
      refine part_of_some ?_
      rw [Findings.mapVersion, hsome]
      exact if_pos hname
    have hperm : (parts a).Perm ((n.findings.name ++ versionText old) ::
        (before ++ after).map (part ·.findings)) := by
      rw [parts_eq, hsplit, ← part_of_some hsome]
      exact (List.mergeSort_perm _ _).trans (List.perm_middle.map _)
    have hperm' : (parts (a.reviseBelow w name v)).Perm ((n.findings.name ++ versionText v) ::
        (before ++ after).map (part ·.findings)) := by
      rw [parts_reviseBelow, hsplit, ← List.map_congr_left hother, ← hpart]
      exact (List.mergeSort_perm _ _).trans (List.perm_middle.map _)
    obtain ⟨hnumber, htime⟩ := eq_of_versionText_eq hnanos hnanos' <|
      eq_of_message_eq hperm hperm' (zero_not_mem_versionText old) (zero_not_mem_versionText v) hmessage
    simp [Version.same, Time.same, Time.toUtc] at hchange htime
    exact hchange hnumber htime.1 htime.2
  · intro hhidden
    have hsame : ∀ n ∈ counted a,
        part (n.findings.mapVersion (versionRevised name v)) = part n.findings := by
      intro n hn
      rw [mapVersion_eq_self fun heq ↦ ?_]
      exact Classical.not_not.1 fun hversion ↦ hhidden ⟨n, hn, heq, hversion⟩
    rw [message, message, parts_reviseBelow, List.map_congr_left hsame, parts_eq]

end Fingerprint

namespace Resolve

variable {src : Source} {opts : Resolver.Options} {root : Definition} {a : Analysis}

theorem accounted_analyzeDefinition (ha : ((analyzeDefinition src opts root).run {}).1 = .ok a) :
    ∃ md version, Accounted src opts md version a := by
  have hreported := ((answering_tells src opts).gives_analyzeDefinition root
    (fun _ _ _ _ ↦ trivial) {} (holds_empty _ _)).1
  rw [ha] at hreported
  cases hmd : Metadata.ofDefinition root with
  | error e =>
    rw [hmd] at hreported
    cases hreported
  | ok md =>
    rw [hmd] at hreported
    cases hreported with
    | gathered hgathered =>
      exact ⟨_, _, accounted_of_gatheredFrom (fun _ _ h ↦ h.1) hgathered⟩

theorem NamesDiffer.isNameOf {flow : String} {md : Metadata} {version : Version}
    (h : NamesDiffer src) (hread : readFlow src flow = .ok (md, version)) :
    IsNameOf src md.name flow where
  of_flow md' version' hread' := by
    rw [hread] at hread'
    rw [(Prod.mk.inj (Except.ok.inj hread')).1]
  ne_of_ne n md' version' hread' hne heq := hne (h n flow _ _ hread' hread heq)

end Resolve

namespace Fingerprint

open Resolve

variable {src : Source} {opts : Resolver.Options} {root : Definition} {flow : String}
  {md : Metadata} {a : Analysis} {old v : Version}

theorem version_of_mem_counted (hnames : NamesDiffer src) (hread : readFlow src flow = .ok (md, old))
    (ha : ((analyzeDefinition src opts root).run {}).1 = .ok a) {n : Analysis} (hn : n ∈ counted a)
    (hname : n.name = md.name) (hversion : n.findings.version ≠ none) :
    n.findings.version = some old := by
  obtain ⟨mda, versiona, haccounted⟩ := accounted_analyzeDefinition ha
  obtain ⟨-, t, htells⟩ := exists_tells_of_mem_counted haccounted hn
  have hmade (x : String) (depth : Int) : n ≠ .depthExceeded x depth := by
    rintro rfl
    exact hversion rfl
  obtain ⟨mdn, versionn, hread', hn'⟩ := htells.accounted hmade
  obtain rfl : t = flow := hnames t flow _ _ hread' hread (hn'.name_eq.symm.trans hname)
  rw [hread] at hread'
  rw [hn'.version_eq, (Prod.mk.inj (Except.ok.inj hread')).2]

/-- Where calls do not lie too deep, the version of every flow below is told. -/
theorem showsVersion_of_complete (hnames : NamesDiffer src)
    (ha : ((analyzeDefinition src opts root).run {}).1 = .ok a)
    (hcomplete : Outcome.Complete (.ok a)) {b n : Analysis} (hb : some b ∈ a.children)
    (hn : n ∈ b.nodes) : ShowsVersion a n.name := by
  obtain ⟨mda, versiona, haccounted⟩ := accounted_analyzeDefinition ha
  obtain ⟨m, hm, hname⟩ := exists_counted hnames haccounted (hcomplete a rfl) hb hn
  obtain ⟨hmem, t, htells⟩ := exists_tells_of_mem_counted haccounted hm
  obtain ⟨mdm, versionm, -, hm'⟩ := htells.accounted (hcomplete a rfl m hmem)
  exact ⟨m, hm, hname, by rw [hm'.version_eq]; simp⟩

/-- With another version of a flow in the source the analysis succeeds again. Unless the two messages
collide, the checksum is another one exactly if the first analysis with the name of the flow that is met
tells a version. This is so wherever the flow is analyzed below and no calls lie too deep. A run that
was recorded under the checksum is then not taken for the latest. -/
theorem checksum_changes_iff (hnames : NamesDiffer src) (hread : readFlow src flow = .ok (md, old))
    (hnanos : old.lastModified.nanos < 10 ^ 9) (hnanos' : v.lastModified.nanos < 10 ^ 9)
    (hchange : old.same v = false) (v' : Version)
    (ha : ((analyzeDefinition src opts root).run {}).1 = .ok a) :
    ∃ a', ((analyzeDefinition (src.revise flow v) opts (root.revise v')).run {}).1 = .ok a' ∧
      (¬Sha256.Collide (message root.content a) (message root.content a') →
        (compute root.content (some a) ≠ compute root.content (some a') ↔ ShowsVersion a md.name) ∧
        (Outcome.Complete (.ok a) → (∃ b, some b ∈ a.children ∧ ∃ n ∈ b.nodes, n.name = md.name) →
          ShowsVersion a md.name) ∧
        (ShowsVersion a md.name → ∀ r : Record, r.checksum = compute root.content (some a) →
          Store.shouldSkip (some r) (compute root.content (some a')) = false)) := by
  refine ⟨a.reviseBelow (fun _ _ ↦ some v') md.name v, ?_, fun hcollide ↦ ?_⟩
  · rw [analyzeDefinition_revise (hnames.isNameOf hread), ha]
    rfl
  · have hmessage : message root.content a =
        message root.content (a.reviseBelow (fun _ _ ↦ some v') md.name v) ↔ ¬ShowsVersion a md.name :=
      message_reviseBelow_eq_iff (fun n hn ↦ version_of_mem_counted hnames hread ha hn) hnanos hnanos'
        hchange
    have hchecksum : compute root.content (some a) ≠ compute root.content
        (some (a.reviseBelow (fun _ _ ↦ some v') md.name v)) ↔ ShowsVersion a md.name := by
      rw [← not_iff_not, Classical.not_not, ← hmessage, compute_eq, compute_eq]
      exact ⟨fun h ↦ Classical.not_not.1 fun hne ↦ hcollide ⟨hne, h⟩, congrArg _⟩
    refine ⟨hchecksum, ?_, fun hshows r hr ↦ ?_⟩
    · rintro hcomplete ⟨b, hb, n, hn, hname⟩
      exact hname ▸ showsVersion_of_complete hnames ha hcomplete hb hn
    · have hne := hchecksum.2 hshows
      rw [← hr] at hne
      simp [Store.shouldSkip, hne]

/-- If each flow of a source goes by the name that it is asked for, then the names differ. -/
theorem namesDiffer_memory {m : Memory} (names : List String) (hkeys : ∀ q ∈ m.flows, q.1 ∈ names)
    (hnames : ∀ t ∈ names, (readFlow (m.source none) t).toOption.all (fun p ↦ p.1.name == t) = true) :
    NamesDiffer (m.source none) := by
  have hname (t : String) (p : Metadata × Version) (h : readFlow (m.source none) t = .ok p) :
      p.1.name = t := by
    by_cases ht : t ∈ names
    · simpa [h, Except.toOption] using hnames t ht
    · have hnone : m.flows.find? (·.1 == t) = none := by
        rw [List.find?_eq_none]
        rintro q hq heq
        exact ht (eq_of_beq heq ▸ hkeys q hq)
      simp [readFlow, Memory.source, Memory.fetch, Table.get?, hnone] at h
  intro t t' p p' h h' heq
  rw [← hname t p h, ← hname t' p' h', heq]

theorem namesDiffer_sharedFlows : NamesDiffer sharedFlows :=
  namesDiffer_memory ["A", "B", "C"] (by decide +kernel) (by decide +kernel)

theorem message_of_sorted {ps : List String} {content : List UInt8}
    (hps : (counted a).map (part ·.findings) = ps) (hsorted : ps.Pairwise (· ≤ ·)) :
    message content a = content ++ ps.flatMap fun p ↦ 0 :: p.toByteArray.data.toList := by
  rw [message, parts_eq, hps, List.mergeSort_of_pairwise (by simpa using hsorted)]
  simp only [bytes_eq]

theorem exists_of_map_eq_some {ε α β : Type} {o : Except ε α} {f : α → β} {x : β}
    (h : o.toOption.map f = some x) : ∃ a, o = .ok a ∧ f a = x := by
  cases o with
  | error e => cases h
  | ok a => exact ⟨a, rfl, Option.some.inj h⟩

/-- Below `A` the flow `C` is called by `B` and by `A`. A second version of it changes the checksum. If the
call by `B` lies too deep, it does not, though the version is told of the call by `A`. -/
theorem second_version_hidden_by_deep_call :
    let root := callingFlow "A" ["B", "C"]
    let revised := sharedFlows.revise "C" { version := 1 }
    (∃ a a', ((analyzeDefinition sharedFlows {} root).run {}).1 = .ok a ∧
      ((analyzeDefinition revised {} root).run {}).1 = .ok a' ∧
      compute root.content (some a) ≠ compute root.content (some a')) ∧
    ∃ a a', ((analyzeDefinition sharedFlows { maxDepth := 2 } root).run {}).1 = .ok a ∧
      ((analyzeDefinition revised { maxDepth := 2 } root).run {}).1 = .ok a' ∧
      (∃ n ∈ a.nodes, n.name = "C" ∧ n.findings.version = some {}) ∧
      compute root.content (some a) = compute root.content (some a') := by
  intro root revised
  obtain ⟨⟨md, old⟩, hread, heq⟩ := exists_of_map_eq_some
    (show (readFlow sharedFlows "C").toOption.map (fun p ↦ (p.1.name, p.2)) = some ("C", {}) by
      decide +kernel)
  obtain ⟨hname, rfl⟩ := Prod.mk.inj heq
  have hchanges {opts : Resolver.Options} {a : Analysis}
      (ha : ((analyzeDefinition sharedFlows opts root).run {}).1 = .ok a) :=
    checksum_changes_iff (v := { version := 1 }) namesDiffer_sharedFlows hread (by decide) (by decide)
      (by decide) root.version ha
  rw [show md.name = "C" from hname] at hchanges
  constructor
  · obtain ⟨a, ha, h⟩ := exists_of_map_eq_some
      (show ((analyzeDefinition sharedFlows {} root).run {}).1.toOption.map (fun a ↦
          ((counted a).map (part ·.findings), decide (ShowsVersion a "C"))) =
        some (["B@0@0001-01-01T00:00:00Z", "C@0@0001-01-01T00:00:00Z"], true) by decide +kernel)
    obtain ⟨b, hb, h'⟩ := exists_of_map_eq_some
      (show ((analyzeDefinition revised {} root).run {}).1.toOption.map (fun a ↦
          (counted a).map (part ·.findings)) =
        some ["B@0@0001-01-01T00:00:00Z", "C@1@0001-01-01T00:00:00Z"] by decide +kernel)
    obtain ⟨hps, hshows⟩ := Prod.mk.inj h
    obtain ⟨a', ha', hiff⟩ := hchanges ha
    obtain rfl : b = a' := Except.ok.inj (hb.symm.trans ha')
    refine ⟨a, b, ha, hb, (hiff ?_).1.2 (of_decide_eq_true hshows)⟩
    rintro ⟨-, heq⟩
    rw [message_of_sorted hps (by decide), message_of_sorted h' (by decide)] at heq
    exact absurd heq (by decide +kernel)
  · obtain ⟨a, ha, h⟩ := exists_of_map_eq_some
      (show ((analyzeDefinition sharedFlows { maxDepth := 2 } root).run {}).1.toOption.map (fun a ↦
          (decide (ShowsVersion a "C"),
            a.nodes.any fun n ↦ n.name == "C" && n.findings.version == some {})) =
        some (false, true) by decide +kernel)
    obtain ⟨hhidden, hnode⟩ := Prod.mk.inj h
    obtain ⟨a', ha', hiff⟩ := hchanges ha
    refine ⟨a, a', ha, ha', by simpa using hnode, ?_⟩
    by_cases hcollide : Sha256.Collide (message root.content a) (message root.content a')
    · exact hcollide.2
    · exact Classical.not_not.1 fun hne ↦ of_decide_eq_false hhidden ((hiff hcollide).1.1 hne)

end Fingerprint

end FlowAudit
