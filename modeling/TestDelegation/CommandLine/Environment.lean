/-!
The environment of a process: names and values as the system has them, in bytes that need not be
text.
-/

namespace TestDelegation

structure Environment where
  entries : List (ByteArray × ByteArray)

namespace Environment

def ofTexts (texts : List (String × String)) : Environment :=
  ⟨texts.map fun entry => (entry.1.toUTF8, entry.2.toUTF8)⟩

instance : Coe (List (String × String)) Environment := ⟨ofTexts⟩

/-- The value of a variable, the first of its name. -/
def value? (environment : Environment) (name : String) : Option ByteArray :=
  (environment.entries.find? fun entry => entry.1.data = name.toUTF8.data).map Prod.snd

def decode? (entry : ByteArray × ByteArray) : Option (String × String) := do
  return (← String.fromUTF8? entry.1, ← String.fromUTF8? entry.2)

def texts? (environment : Environment) : Option (List (String × String)) :=
  environment.entries.mapM decode?

theorem fromUTF8?_toUTF8 (text : String) : String.fromUTF8? text.toUTF8 = some text :=
  dif_pos text.isValidUTF8

theorem value?_ofTexts (texts : List (String × String)) (name : String) :
    (ofTexts texts).value? name = (texts.lookup name).map String.toUTF8 := by
  induction texts with
  | nil => rfl
  | cons entry rest ih =>
      rw [value?, ofTexts, List.map_cons, List.find?_cons, List.lookup_cons]
      by_cases same : name = entry.1
      · simp [same]
      · have apart : entry.1.toUTF8.data ≠ name.toUTF8.data := by
          simpa [← ByteArray.ext_iff, String.toByteArray_inj] using Ne.symm same
        rw [decide_eq_false apart, beq_false_of_ne same]
        exact ih

theorem texts?_ofTexts (texts : List (String × String)) :
    (ofTexts texts).texts? = some texts := by
  rw [texts?, ofTexts]
  induction texts with
  | nil => rfl
  | cons entry rest ih =>
      rw [List.map_cons, List.mapM_cons, ih, decode?, fromUTF8?_toUTF8, fromUTF8?_toUTF8]
      rfl

end Environment

end TestDelegation
