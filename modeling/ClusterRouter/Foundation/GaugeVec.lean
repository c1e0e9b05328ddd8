import Mathlib

/-! A gauge for every combination of labels that was ever set; nothing is exported for the
others. -/

set_option autoImplicit false

namespace ClusterRouter.Foundation

universe u

abbrev GaugeVec (Label : Type u) : Type u := Label → Option Int

namespace GaugeVec

variable {Label : Type u} [DecidableEq Label]

def empty : GaugeVec Label := fun _ => none

def set (gauges : GaugeVec Label) (label : Label) (value : Int) : GaugeVec Label :=
  fun other => if other = label then some value else gauges other

def setAll (value : Label → Int) : List Label → GaugeVec Label → GaugeVec Label
  | [], gauges => gauges
  | label :: rest, gauges => setAll value rest (gauges.set label (value label))

theorem setAll_append (value : Label → Int) (first second : List Label) (gauges : GaugeVec Label) :
    setAll value (first ++ second) gauges = setAll value second (setAll value first gauges) := by
  induction first generalizing gauges with
  | nil => rfl
  | cons label rest ih => exact ih _

variable {value : Label → Int} {labels : List Label}

theorem setAll_of_not_mem {label : Label} (absent : label ∉ labels) (gauges : GaugeVec Label) :
    setAll value labels gauges label = gauges label := by
  induction labels generalizing gauges with
  | nil => rfl
  | cons first rest ih =>
    rw [List.mem_cons, not_or] at absent
    obtain ⟨different, absent⟩ := absent
    rw [setAll, ih absent]
    exact if_neg different

theorem setAll_of_mem {label : Label} (member : label ∈ labels) (gauges : GaugeVec Label) :
    setAll value labels gauges label = some (value label) := by
  induction labels generalizing gauges with
  | nil => cases member
  | cons first rest ih =>
    by_cases later : label ∈ rest
    · exact ih later _
    · cases (List.mem_cons.mp member).resolve_right later
      rw [setAll, setAll_of_not_mem later]
      exact if_pos rfl

theorem setAll_eq_self_iff {gauges : GaugeVec Label} :
    setAll value labels gauges = gauges ↔ ∀ label ∈ labels, gauges label = some (value label) := by
  constructor
  · intro same label member
    rw [← same]
    exact setAll_of_mem member gauges
  · intro shown
    funext label
    by_cases member : label ∈ labels
    · rw [setAll_of_mem member, shown label member]
    · exact setAll_of_not_mem member gauges

end GaugeVec

end ClusterRouter.Foundation
