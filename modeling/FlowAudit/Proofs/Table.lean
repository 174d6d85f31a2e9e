import FlowAudit.Table
import Mathlib.Data.Finset.Card
import Mathlib.Data.String.Basic

namespace FlowAudit

def Table.IsSorted {α : Type} (t : Table α) : Prop := t.Pairwise fun a b ↦ a.1 < b.1

instance {α : Type} (t : Table α) : Decidable t.IsSorted := inferInstanceAs (Decidable (t.Pairwise _))

namespace Table

variable {α : Type} {t : Table α} {key k : String} {a : α}

theorem insert_of_lt (h : ∀ e ∈ t, e.1 < key) (a : α) : insert key a t = t ++ [(key, a)] := by
  induction t with
  | nil => rfl
  | cons e t ih =>
    obtain ⟨k, b⟩ := e
    have hk : k < key := h _ List.mem_cons_self
    rw [insert, if_neg (lt_asymm hk), if_neg (by simpa using (ne_of_lt hk).symm),
      ih fun e he ↦ h e (List.mem_cons_of_mem _ he), List.cons_append]

theorem ofList_of_isSorted (h : t.IsSorted) : ofList t = t := by
  have hfold (done rest : Table α) (h : Table.IsSorted (done ++ rest)) :
      rest.foldl (fun t e ↦ insert e.1 e.2 t) done = done ++ rest := by
    induction rest generalizing done with
    | nil => simp
    | cons e rest ih =>
      have hlt : ∀ d ∈ done, d.1 < e.1 := fun d hd ↦
        (List.pairwise_append.1 h).2.2 d hd e List.mem_cons_self
      rw [List.foldl_cons, insert_of_lt hlt, ih _ (by simpa using h)]
      simp
  exact hfold [] t h

theorem mem_keys_insert : k ∈ (insert key a t).keys ↔ k = key ∨ k ∈ t.keys := by
  induction t with
  | nil => simp [insert, keys]
  | cons e t ih =>
    obtain ⟨l, b⟩ := e
    simp only [keys, List.map_cons, List.mem_cons] at ih ⊢
    rw [insert]
    split
    · simp
    · split
      · next h => simp [← beq_iff_eq.1 h]
      · rw [List.map_cons, List.mem_cons, ih]
        tauto

theorem isSorted_insert (h : t.IsSorted) : (insert key a t).IsSorted := by
  induction t with
  | nil => exact List.pairwise_singleton _ _
  | cons e t ih =>
    obtain ⟨l, b⟩ := e
    obtain ⟨hhead, htail⟩ := List.pairwise_cons.1 h
    rw [insert]
    split
    · next hlt =>
      refine List.pairwise_cons.2 ⟨fun d hd ↦ ?_, h⟩
      rcases List.mem_cons.1 hd with rfl | hd
      · exact hlt
      · exact hlt.trans (hhead d hd)
    · next hge =>
      split
      · next heq =>
        rw [beq_iff_eq] at heq
        subst heq
        exact List.pairwise_cons.2 ⟨hhead, htail⟩
      · next hne =>
        refine List.pairwise_cons.2 ⟨fun d hd ↦ ?_, ih htail⟩
        have hkey : d.1 ∈ (insert key a t).keys := List.mem_map_of_mem hd
        rcases mem_keys_insert.1 hkey with hkey | hkey
        · rw [hkey]
          exact lt_of_le_of_ne (not_lt.1 hge) fun heq ↦ hne (beq_iff_eq.2 heq.symm)
        · obtain ⟨d', hd', heq⟩ := List.mem_map.1 hkey
          exact heq ▸ hhead d' hd'

theorem isSorted_ofList (entries : List (String × α)) : (ofList entries).IsSorted :=
  List.foldlRecOn (motive := IsSorted) entries _ .nil fun _ h _ _ ↦ isSorted_insert h

theorem mem_keys_ofList {entries : List (String × α)} :
    k ∈ (ofList entries).keys ↔ k ∈ entries.map (·.1) := by
  have hfold (t : Table α) : k ∈ (entries.foldl (fun t e ↦ insert e.1 e.2 t) t).keys ↔
      k ∈ t.keys ∨ k ∈ entries.map (·.1) := by
    induction entries generalizing t with
    | nil => simp
    | cons e entries ih =>
      rw [List.foldl_cons, ih, mem_keys_insert, List.map_cons, List.mem_cons]
      tauto
  exact (hfold []).trans (or_iff_right List.not_mem_nil)

theorem pairwise_keys (h : t.IsSorted) : t.keys.Pairwise (· < ·) := List.pairwise_map.2 h

theorem nodup_keys (h : t.IsSorted) : t.keys.Nodup := (pairwise_keys h).imp ne_of_lt

theorem length_ofList (entries : List (String × α)) :
    (ofList entries).length = (entries.map (·.1)).toFinset.card := by
  have hkeys : (ofList entries).keys.toFinset = (entries.map (·.1)).toFinset := by
    ext k
    simp only [List.mem_toFinset, mem_keys_ofList]
  rw [← hkeys, List.toFinset_card_of_nodup (nodup_keys (isSorted_ofList entries)), keys, List.length_map]

theorem get?_cons (l : String) (b : α) (t : Table α) (k : String) :
    Table.get? ((l, b) :: t) k = if l = k then some b else t.get? k := by
  by_cases h : l = k <;> simp [get?, h]

theorem get?_insert (key k : String) (a : α) (t : Table α) :
    (insert key a t).get? k = if key = k then some a else t.get? k := by
  induction t with
  | nil => rw [insert, get?_cons]
  | cons e t ih =>
    obtain ⟨l, b⟩ := e
    rw [insert]
    split
    · rw [get?_cons]
    · split
      · next h =>
        obtain rfl := beq_iff_eq.1 h
        rw [get?_cons, get?_cons]
        split <;> rfl
      · next h =>
        -- another key stands in front and stays there
        rw [get?_cons, get?_cons, ih]
        by_cases hk : l = k
        · rw [if_pos hk, if_neg fun hkey ↦ h (beq_iff_eq.2 (hkey.trans hk.symm)), if_pos hk]
        · rw [if_neg hk, if_neg hk]

section Updates

variable {β : Type} (key : β → String) (f : Option α → β → α)

/-- The table after updates one after another, each of which may look at the value before it. -/
def updated (t : Table α) (bs : List β) : Table α :=
  bs.foldl (fun t b ↦ insert (key b) (f (t.get? (key b)) b) t) t

/-- The value of a key is made by the updates of that key alone. -/
theorem get?_updated (t : Table α) (bs : List β) (k : String) :
    (updated key f t bs).get? k =
      (bs.filter (key · == k)).foldl (fun o b ↦ some (f o b)) (t.get? k) := by
  induction bs generalizing t with
  | nil => rfl
  | cons b bs ih =>
    rw [updated, List.foldl_cons, ← updated, ih, get?_insert]
    by_cases h : key b = k
    · rw [if_pos h, List.filter_cons_of_pos (by simpa using h), List.foldl_cons, h]
    · rw [if_neg h, List.filter_cons_of_neg (by simpa using h)]

theorem isSorted_updated {t : Table α} (h : t.IsSorted) (bs : List β) : (updated key f t bs).IsSorted :=
  List.foldlRecOn (motive := IsSorted) bs _ h fun _ h _ _ ↦ isSorted_insert h

theorem mem_keys_updated (t : Table α) (bs : List β) (k : String) :
    k ∈ (updated key f t bs).keys ↔ k ∈ t.keys ∨ ∃ b ∈ bs, key b = k := by
  induction bs generalizing t with
  | nil => simp [updated]
  | cons b bs ih =>
    rw [updated, List.foldl_cons, ← updated, ih, mem_keys_insert, List.exists_mem_cons_iff,
      eq_comm (a := k)]
    tauto

end Updates

end Table

end FlowAudit
