import FlowAudit.Proofs.Time.Order
import FlowAudit.Store.Basic
import Mathlib

namespace FlowAudit

namespace Time

variable {t t' : Time}

/-- Readings of a clock that tells UTC in years of four digits. -/
structure IsReading (t : Time) : Prop where
  utc : t.offset = 0
  year_nonneg : 0 ≤ t.year
  year_le : t.year ≤ 9999
  nanos_lt : t.nanos < 10 ^ 9

instance (t : Time) : Decidable t.IsReading :=
  decidable_of_iff (t.offset = 0 ∧ 0 ≤ t.year ∧ t.year ≤ 9999 ∧ t.nanos < 10 ^ 9)
    ⟨fun ⟨h₁, h₂, h₃, h₄⟩ ↦ ⟨h₁, h₂, h₃, h₄⟩, fun ⟨h₁, h₂, h₃, h₄⟩ ↦ ⟨h₁, h₂, h₃, h₄⟩⟩

theorem eq_or_before (h : t.offset = 0) (h' : t'.offset = 0) :
    t = t' ∨ t.before t' = true ∨ t'.before t = true := by
  obtain ⟨seconds, nanos, offset⟩ := t
  obtain ⟨seconds', nanos', offset'⟩ := t'
  simp only [before, mk.injEq, Bool.or_eq_true, Bool.and_eq_true, decide_eq_true_eq, beq_iff_eq] at *
  omega

theorem IsReading.storedText_lt (h : t.IsReading) (h' : t'.IsReading) (hlt : t.before t' = true) :
    t.storedText < t'.storedText :=
  Time.storedText_lt h.utc h'.utc ⟨h.year_nonneg, h.year_le⟩ ⟨h'.year_nonneg, h'.year_le⟩ h'.nanos_lt hlt

/-- As long as years have four digits, the texts of times are in the order of the times. -/
theorem IsReading.storedText_le_iff (h : t.IsReading) (h' : t'.IsReading) :
    t.storedText ≤ t'.storedText ↔ t'.before t = false := by
  constructor
  · intro hle
    rw [← Bool.not_eq_true]
    exact fun hbefore ↦ absurd (h'.storedText_lt h hbefore) (not_lt_of_ge hle)
  · intro hbefore
    rcases eq_or_before h.utc h'.utc with rfl | hlt | hgt
    · exact le_rfl
    · exact (h.storedText_lt h' hlt).le
    · rw [hgt] at hbefore
      cases hbefore

theorem readBack_of_utc (h : t.offset = 0) (hyear : 0 ≤ t.year ∧ t.year ≤ 9999) (index : Nat)
    (column : String) : t.readBack "" index column = .ok t := by
  obtain ⟨seconds, nanos, offset⟩ := t
  subst h
  have hname : zoneName "" 0 = "UTC" := rfl
  have hzone : isZoneName "UTC" = true := by decide
  simp [readBack, restored, hname, hzone, hyear]

end Time

namespace Engine

variable {e : Engine} {t u : Time} {runs : List Run}

/-- The readings of a clock that is no finer than the times that are kept. -/
structure Tells (e : Engine) (t : Time) : Prop where
  reading : t.IsReading
  whole : e.precision ∣ t.nanos

instance (e : Engine) (t : Time) : Decidable (e.Tells t) :=
  decidable_of_iff (t.IsReading ∧ e.precision ∣ t.nanos) ⟨fun ⟨h₁, h₂⟩ ↦ ⟨h₁, h₂⟩, fun ⟨h₁, h₂⟩ ↦ ⟨h₁, h₂⟩⟩

/-- What is asked of a system: that it understands its own dialect, and that it sorts the times of a clock
as times and reads them as they were. -/
structure Lawful (e : Engine) : Prop where
  understood : ∀ st, e.refuse? e.dialect st = none
  timeLe_iff : ∀ {t u : Time}, e.Tells t → e.Tells u → (e.timeLe t u = true ↔ u.before t = false)
  readTime_eq : ∀ {t : Time}, e.Tells t → ∀ index column, e.readTime index column t = .ok t

theorem lawful_sqlite : sqlite.Lawful where
  understood st := by cases st <;> rfl
  timeLe_iff {t u} ht hu := by
    simp only [sqlite, decide_eq_true_eq]
    exact ht.reading.storedText_le_iff hu.reading
  readTime_eq ht := Time.readBack_of_utc ht.reading.utc ⟨ht.reading.year_nonneg, ht.reading.year_le⟩

theorem lawful_postgres : postgres.Lawful where
  understood st := by cases st <;> rfl
  timeLe_iff {t u} _ _ := by
    simp only [postgres, Bool.not_eq_true']
  readTime_eq {t} ht _ _ := by
    have hutc := ht.reading.utc
    obtain ⟨seconds, nanos, offset⟩ := t
    subst hutc
    rfl

theorem Lawful.eq_of_timeLe (h : e.Lawful) (ht : e.Tells t) (hu : e.Tells u) (hle : e.timeLe t u = true)
    (hge : e.timeLe u t = true) : t = u := by
  rw [h.timeLe_iff ht hu] at hle
  rw [h.timeLe_iff hu ht] at hge
  rcases Time.eq_or_before ht.reading.utc hu.reading.utc with heq | hlt | hgt
  · exact heq
  · rw [hlt] at hge
    cases hge
  · rw [hgt] at hle
    cases hle

section Order

theorem isLater_iff {a b : Run} : e.isLater a b = true ↔ e.timeLe b.createdAt a.createdAt = true ∧
    (e.timeLe a.createdAt b.createdAt = true → e.textLe b.id a.id = true) := by
  rw [isLater]
  cases e.timeLe b.createdAt a.createdAt <;> cases e.timeLe a.createdAt b.createdAt <;> simp

theorem isLater_trans (a b c : Run) (hab : e.isLater a b = true) (hbc : e.isLater b c = true) :
    e.isLater a c = true := by
  rw [isLater_iff] at hab hbc ⊢
  refine ⟨e.timeLe_trans _ _ _ hbc.1 hab.1, fun hac ↦ ?_⟩
  exact e.textLe_trans _ _ _ (hbc.2 (e.timeLe_trans _ _ _ hab.1 hac))
    (hab.2 (e.timeLe_trans _ _ _ hac hbc.1))

theorem isLater_total (a b : Run) : (e.isLater a b || e.isLater b a) = true := by
  have htime := Bool.or_eq_true _ _ ▸ e.timeLe_total a.createdAt b.createdAt
  have htext := Bool.or_eq_true _ _ ▸ e.textLe_total a.id b.id
  rw [Bool.or_eq_true, isLater_iff, isLater_iff]
  tauto

theorem latestFirst_perm (e : Engine) (runs : List Run) : (e.latestFirst runs).Perm runs :=
  List.mergeSort_perm _ _

theorem pairwise_latestFirst (e : Engine) (runs : List Run) :
    (e.latestFirst runs).Pairwise fun a b ↦ e.isLater a b = true :=
  List.pairwise_mergeSort isLater_trans isLater_total runs

theorem head?_mergeSort {α : Type} {le : α → α → Bool} (htrans : ∀ a b c, le a b → le b c → le a c)
    (htotal : ∀ a b, le a b || le b a) {as : List α} {a : α}
    (h : (as.mergeSort le).head? = some a) : a ∈ as ∧ ∀ b ∈ as, le a b = true := by
  have hsorted := List.pairwise_mergeSort htrans htotal as
  have hmem (b : α) : b ∈ as.mergeSort le ↔ b ∈ as := List.mem_mergeSort
  cases hlist : as.mergeSort le with
  | nil => simp [hlist] at h
  | cons first rest =>
    rw [hlist] at h hsorted hmem
    obtain rfl : first = a := by simpa using h
    refine ⟨(hmem first).1 List.mem_cons_self, fun b hb ↦ ?_⟩
    rcases List.mem_cons.1 ((hmem b).2 hb) with rfl | hb
    · simpa using htotal b b
    · exact (List.pairwise_cons.1 hsorted).1 b hb

theorem head?_latestFirst_eq_some {r : Run} (hr : r ∈ runs)
    (h : ∀ x ∈ runs, x = r ∨ e.timeLe r.createdAt x.createdAt = false) :
    (e.latestFirst runs).head? = some r := by
  cases hhead : (e.latestFirst runs).head? with
  | none =>
    rw [List.head?_eq_none_iff] at hhead
    rw [← (e.latestFirst_perm runs).mem_iff, hhead] at hr
    cases hr
  | some first =>
    obtain ⟨hfirst, hlater⟩ := head?_mergeSort isLater_trans isLater_total hhead
    rcases h first hfirst with rfl | hle
    · rfl
    · rw [(isLater_iff.1 (hlater r hr)).1] at hle
      cases hle

/-- The first of the sorted runs is the last one, where runs were added in the order of time. -/
theorem head?_latestFirst (h : runs.Pairwise fun a b ↦ e.timeLe b.createdAt a.createdAt = false) :
    (e.latestFirst runs).head? = runs.getLast? := by
  cases runs using List.reverseRecOn with
  | nil => simp [latestFirst]
  | append_singleton runs r =>
    rw [List.getLast?_append, List.getLast?_singleton, Option.some_or]
    refine head?_latestFirst_eq_some (by simp) fun x hx ↦ ?_
    rcases List.mem_append.1 hx with hx | hx
    · exact .inr ((List.pairwise_append.1 h).2.2 x hx r (by simp))
    · exact .inl (List.mem_singleton.1 hx)

theorem newest?_eq_some {r : Run} (h : e.newest? runs = some r) :
    r ∈ runs ∧ ∀ x ∈ runs, e.timeLe x.createdAt r.createdAt = true := by
  rw [newest?] at h
  refine head?_mergeSort (fun a b c hab hbc ↦ ?_) (fun a b ↦ ?_) h
  · exact e.timeLe_trans _ _ _ hbc hab
  · exact e.timeLe_total _ _

theorem newest?_eq_none (h : e.newest? runs = none) : runs = [] := by
  rw [newest?, List.head?_eq_none_iff] at h
  have hperm := List.mergeSort_perm runs fun a b ↦ e.timeLe b.createdAt a.createdAt
  rw [h] at hperm
  exact hperm.nil_eq.symm

end Order

end Engine

end FlowAudit
