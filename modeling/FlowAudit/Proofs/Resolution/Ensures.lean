import FlowAudit.Resolution.Resolver

namespace FlowAudit.Resolve

variable {α β : Type} {P P' : Resolver → Prop} {Q Q' : α → Resolver → Prop}
  {R : β → Resolver → Prop} {m : Resolve α} {f : α → Resolve β}

/-- Started in a state with the precondition, the computation ends with the postcondition. -/
def Ensures (P : Resolver → Prop) (m : Resolve α) (Q : α → Resolver → Prop) : Prop :=
  ∀ r, P r → Q (m.run r).1 (m.run r).2

namespace Ensures

theorem weaken (h : Ensures P m Q) (hP : ∀ r, P' r → P r) (hQ : ∀ a r, Q a r → Q' a r) :
    Ensures P' m Q' :=
  fun r hr ↦ hQ _ _ (h r (hP r hr))

theorem pure {a : α} (h : ∀ r, P r → Q a r) : Ensures P (Pure.pure a) Q := h

theorem bind (hm : Ensures P m Q) (hf : ∀ a, Ensures (Q a) (f a) R) : Ensures P (m >>= f) R :=
  fun r hr ↦ hf _ _ (hm r hr)

theorem get_bind {f : Resolver → Resolve β} (h : ∀ r, P r → Ensures (· = r) (f r) R) :
    Ensures P (get >>= f) R :=
  fun r hr ↦ h r hr r rfl

theorem modify {Q : Unit → Resolver → Prop} {u : Resolver → Resolver} (h : ∀ r, P r → Q () (u r)) :
    Ensures P (modify u) Q := h

theorem forM {ι : Type} {f : ι → Resolve PUnit} {is : List ι}
    (h : ∀ i ∈ is, Ensures P (f i) fun _ ↦ P) : Ensures P (is.forM f) fun _ ↦ P := by
  induction is with
  | nil => exact Ensures.pure fun _ hr ↦ hr
  | cons i is ih =>
    refine Ensures.bind (h i List.mem_cons_self) fun _ ↦ ?_
    exact ih fun j hj ↦ h j (List.mem_cons_of_mem _ hj)

end Ensures

end FlowAudit.Resolve
