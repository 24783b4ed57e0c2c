import Reconcile.Policy.Compatibility
import Reconcile.Proofs.Text.Trim

namespace Reconcile

/-- How a truth value is spelled: by its word in any case, with blanks around it. -/
def SpellsFlag (value : String) (flag : Bool) : Prop :=
  ∃ front word back, value.toList = front ++ (word ++ back) ∧
    (∀ c ∈ front, Text.isBlank c = true) ∧ (∀ c ∈ back, Text.isBlank c = true) ∧
    Text.lowerAsciiText word = (toString flag).toList

variable {field value : String} {flag : Bool}

theorem toString_true : toString true = "true" :=
  rfl

theorem toString_false : toString false = "false" :=
  rfl

theorem toList_toString (flag : Bool) :
    Text.lowerAsciiText (toString flag).toList = (toString flag).toList ∧
      Text.trim (toString flag).toList = (toString flag).toList := by
  cases flag <;> decide +kernel

theorem spellsFlag_toString (flag : Bool) : SpellsFlag (toString flag) flag :=
  ⟨[], (toString flag).toList, [], by simp, nofun, nofun, (toList_toString flag).1⟩

theorem spellsFlag_iff :
    SpellsFlag value flag ↔ Text.equalIgnoringCase (Text.trimmed value) (toString flag) = true := by
  have hword := toList_toString flag
  rw [Text.equalIgnoringCase, beq_iff_eq, hword.1, Text.trimmed, String.toList_ofList]
  constructor
  · rintro ⟨front, word, back, hvalue, hfront, hback, hlower⟩
    have hself : Text.trim word = word :=
      Text.trim_eq_self_of_lowerAsciiText (by rw [hlower, hword.2])
    rw [hvalue, Text.trim_append_append hfront hback, hself, hlower]
  · intro hlower
    obtain ⟨front, back, hvalue, hfront, hback⟩ := Text.exists_append_trim value.toList
    exact ⟨front, Text.trim value.toList, back, hvalue, hfront, hback, hlower⟩

instance : Decidable (SpellsFlag value flag) :=
  decidable_of_iff' _ spellsFlag_iff

theorem readFlag_of_spellsFlag (hvalue : SpellsFlag value flag) (field : String) :
    readFlag field value = .ok flag := by
  rw [spellsFlag_iff] at hvalue
  rw [readFlag]
  cases flag with
  | true =>
    rw [toString_true] at hvalue
    rw [if_pos hvalue]
  | false =>
    rw [toString_false] at hvalue
    have hnot : ¬ Text.equalIgnoringCase (Text.trimmed value) "true" = true := by
      intro htrue
      rw [Text.equalIgnoringCase, beq_iff_eq] at hvalue htrue
      exact absurd (htrue.symm.trans hvalue) (by decide +kernel)
    rw [if_neg hnot, if_pos hvalue]

/-- Anything else is reported with its field, without the blanks around it. -/
theorem readFlag_of_not_spellsFlag (hvalue : ∀ flag, ¬ SpellsFlag value flag) (field : String) :
    readFlag field value = .error (.invalidValue field (Text.trimmed value)) := by
  have htrue := hvalue true
  have hfalse := hvalue false
  rw [spellsFlag_iff, toString_true] at htrue
  rw [spellsFlag_iff, toString_false] at hfalse
  rw [readFlag, if_neg htrue, if_neg hfalse]

end Reconcile
