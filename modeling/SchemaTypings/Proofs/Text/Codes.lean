import SchemaTypings.Proofs.Names

/-!
# Codes that can be read back

Values printed in a row can be read back when each shows where it ends: two rows that
begin with printed values are equal only if the values are equal and so is what stands
behind them. What may stand behind a value is part of the code, and lists of values inherit
the property from their members. Characters are printed in this way, and whole lines.
-/

namespace SchemaTypings

open Sdl

/-- Two printed values that are valid are told apart in front of anything that may
follow them. -/
def ReadsBack {α σ : Type} (valid : α → Prop) (print : α → List σ)
    (follows : List σ → Prop) : Prop :=
  ∀ ⦃a b : α⦄ ⦃s t : List σ⦄, valid a → valid b → follows s → follows t →
    print a ++ s = print b ++ t → a = b ∧ s = t

/-- A name ends where nothing continues it. -/
theorem readsBack_name : ReadsBack IsName String.toList (¬ ContinuesName ·) := by
  intro a b s t isName isName' ends ends' same
  have taken := takeName_append isName ends
  rw [same, takeName_append isName' ends'] at taken
  obtain ⟨name, rest⟩ := Prod.mk.inj (Option.some.inj taken)
  exact ⟨(String.toList_injective name).symm, rest.symm⟩

/-- A list can be read back if its members can, each followed by the next, and if no member
looks like what stands behind the list. -/
theorem ReadsBack.flatMap {α σ : Type} {valid : α → Prop} {print : α → List σ}
    {follows : List σ → Prop} (code : ReadsBack valid print follows) (stop : List σ → Prop)
    (next : ∀ a s, valid a → follows (print a ++ s)) (last : ∀ s, stop s → follows s)
    (apart : ∀ a s, valid a → ¬ stop (print a ++ s)) :
    ReadsBack (fun as => ∀ a ∈ as, valid a) (List.flatMap print) stop := by
  have following {as : List α} {s : List σ} (valids : ∀ a ∈ as, valid a) (stops : stop s) :
      follows (as.flatMap print ++ s) := by
    cases as with
    | nil => exact last s stops
    | cons a as =>
      rw [List.flatMap_cons, List.append_assoc]
      exact next a _ (valids a List.mem_cons_self)
  intro as
  induction as with
  | nil =>
    intro bs s t _ valids stops _ same
    cases bs with
    | nil => exact ⟨rfl, same⟩
    | cons b bs =>
      rw [List.flatMap_nil, List.nil_append, List.flatMap_cons, List.append_assoc] at same
      rw [same] at stops
      exact absurd stops (apart b _ (valids b List.mem_cons_self))
  | cons a as ih =>
    intro bs s t valids valids' stops stops' same
    rw [List.flatMap_cons, List.append_assoc] at same
    cases bs with
    | nil =>
      rw [List.flatMap_nil, List.nil_append] at same
      rw [← same] at stops'
      exact absurd stops' (apart a _ (valids a List.mem_cons_self))
    | cons b bs =>
      rw [List.flatMap_cons, List.append_assoc] at same
      obtain ⟨valid, rest⟩ := List.forall_mem_cons.mp valids
      obtain ⟨valid', rest'⟩ := List.forall_mem_cons.mp valids'
      obtain ⟨rfl, tails⟩ := code valid valid' (following rest stops) (following rest' stops') same
      obtain ⟨rfl, ends⟩ := ih rest rest' stops stops' tails
      exact ⟨rfl, ends⟩

/-! ### Lines -/

/-- The text holds no line end, not even a part of one. -/
def IsLine (text : String) : Prop := ∀ c ∈ text.toList, c ≠ '\r' ∧ c ≠ '\n'

instance (text : String) : Decidable (IsLine text) :=
  decidable_of_iff ((text.toList.all fun c => c != '\r' && c != '\n') = true) (by simp [IsLine])

/-- A text in two parts is one line if both parts are. -/
theorem isLine_append {a b : String} : IsLine (a ++ b) ↔ IsLine a ∧ IsLine b := by
  simp only [IsLine, String.toList_append, List.forall_mem_append]

/-- Names hold no line ends. -/
theorem IsName.isLine {name : String} (named : IsName name) : IsLine name := by
  intro c mem
  have part := named.isNamePart c mem
  constructor
  · rintro rfl
    exact absurd part (by decide)
  · rintro rfl
    exact absurd part (by decide)

theorem IsLine.single {text : String} (isLine : IsLine text) : '\n' ∉ text.toList :=
  fun mem => (isLine _ mem).2 rfl

/-- A line ends with its line end. -/
theorem readsBack_line :
    ReadsBack IsLine (fun line => line.toList ++ "\r\n".toList) (fun _ => True) := by
  intro a b s t isLine isLine' _ _ same
  have taken (line : String) (rest : List Char) (isLine : IsLine line) :
      (line.toList ++ "\r\n".toList ++ rest).takeWhile (· != '\r') = line.toList := by
    have inside : ∀ c ∈ line.toList, (c != '\r') = true :=
      fun c mem => by simpa using (isLine c mem).1
    rw [List.append_assoc, List.takeWhile_append_of_pos inside]
    simp
  have lines := taken a s isLine
  rw [same, taken b t isLine'] at lines
  obtain rfl := String.toList_injective lines
  exact ⟨rfl, List.append_cancel_left same⟩

end SchemaTypings
