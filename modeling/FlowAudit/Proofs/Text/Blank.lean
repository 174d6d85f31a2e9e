import FlowAudit.Text.Character
import Mathlib.Data.List.DropRight

namespace FlowAudit.Text

variable {cs before after : List Char}

theorem dropBlankEnd_eq_rdropWhile (cs : List Char) : dropBlankEnd cs = cs.rdropWhile isBlank := rfl

theorem dropBlankEnd_append (hafter : ∀ c ∈ after, isBlank c) :
    dropBlankEnd (cs ++ after) = dropBlankEnd cs := by
  have hreverse : ∀ c ∈ after.reverse, isBlank c := fun c hc ↦ hafter c (List.mem_reverse.1 hc)
  rw [dropBlankEnd, dropBlankEnd, List.reverse_append, List.dropWhile_append_of_pos hreverse]

theorem trimChars_append (hbefore : ∀ c ∈ before, isBlank c) (hafter : ∀ c ∈ after, isBlank c) :
    trimChars (before ++ cs ++ after) = trimChars cs := by
  rw [trimChars, trimChars, List.append_assoc, List.dropWhile_append_of_pos hbefore,
    List.dropWhile_append]
  split
  · next hempty =>
    rw [List.dropWhile_eq_nil_iff.2 hafter, List.isEmpty_iff.1 hempty]
  · exact dropBlankEnd_append hafter

theorem not_isBlank_head {c : Char} {rest : List Char} (h : trimChars cs = c :: rest) :
    isBlank c = false := by
  have hbegin : c :: rest <+: cs.dropWhile isBlank := by
    rw [← h, trimChars, dropBlankEnd_eq_rdropWhile]
    exact List.rdropWhile_prefix _ _
  obtain ⟨ends, hends⟩ := hbegin
  have hhead := List.head?_dropWhile_not isBlank cs
  rw [← hends] at hhead
  exact hhead

def Padded (s s' : String) : Prop :=
  ∃ before after : List Char, (∀ c ∈ before, isBlank c) ∧ (∀ c ∈ after, isBlank c) ∧
    s'.toList = before ++ s.toList ++ after

theorem trimChars_sublist (cs : List Char) : (trimChars cs).Sublist cs := by
  have hend : trimChars cs <+: cs.dropWhile isBlank := List.rdropWhile_prefix _ _
  exact hend.sublist.trans (List.dropWhile_sublist _)

theorem trimChars_trimChars (cs : List Char) : trimChars (trimChars cs) = trimChars cs := by
  have hhead : (trimChars cs).dropWhile isBlank = trimChars cs := by
    cases h : trimChars cs with
    | nil => rfl
    | cons c rest => simp [not_isBlank_head h]
  rw [trimChars, hhead]
  exact List.rdropWhile_idempotent _ _

theorem padded_trim (s : String) : Padded (trim s) s := by
  refine ⟨s.toList.takeWhile isBlank, (s.toList.dropWhile isBlank).rtakeWhile isBlank, ?_, ?_, ?_⟩
  · intro c hc
    exact List.mem_takeWhile_imp hc
  · intro c hc
    exact List.mem_rtakeWhile_imp hc
  · have hend : trimChars s.toList ++ (s.toList.dropWhile isBlank).rtakeWhile isBlank =
        s.toList.dropWhile isBlank := List.rdropWhile_append_rtakeWhile
    rw [trim, String.toList_ofList, List.append_assoc, hend, List.takeWhile_append_dropWhile]

theorem Padded.trim_eq {s s' : String} (h : Padded s s') : trim s' = trim s := by
  obtain ⟨before, after, hbefore, hafter, htext⟩ := h
  rw [trim, htext, trimChars_append hbefore hafter, trim]

end FlowAudit.Text
