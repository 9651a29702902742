import SchemaAtlas.Proofs.Expr.Chained
import SchemaAtlas.Table.Extras

/-!
# What the modifiers of an extra mean

Of the modifiers of an index or a constraint that have one name only the innermost counts, the one
that is called first. So modifiers with different names may stand in any order, and whether `on` or
`using` gives the columns of an index does not depend on where they stand.
-/

namespace SchemaAtlas.Extra

open Expr.Link (named)

variable {modifiers modifiers' : List Expr.Link} {base : Expr.Link} {value value' : Expr}

/-- In the order in which modifiers are called, the first one with a name is found. -/
theorem modifier?_reverse (modifiers : List Expr.Link) (name : Text) :
    modifier? modifiers.reverse name = (modifiers.find? (named name)).map (·.arguments) := by
  rw [modifier?, List.reverse_reverse]
  rfl

section Congruence

variable (h : ∀ name, modifier? modifiers' name = modifier? modifiers name)
include h

theorem ofIndex_congr (table : Text) (key : Option Text) (base : List Expr) (unique : Bool) :
    ofIndex table key base modifiers' unique = ofIndex table key base modifiers unique := by
  simp only [ofIndex, indexTarget?, modifierArgument?, h]

theorem ofForeignKey_congr (key : Option Text) (base : List Expr) :
    ofForeignKey key base modifiers' = ofForeignKey key base modifiers := by
  simp only [ofForeignKey, modifierArgument?, h]

end Congruence

/-- What is read from a chain is settled by the call that it starts with and the modifiers that are
the first of their name. -/
theorem ofEntry_of_find?_eq (table : Text) (key : Option Text)
    (h : Expr.Chained base modifiers value) (h' : Expr.Chained base modifiers' value')
    (hfirst : ∀ name, modifiers'.find? (named name) = modifiers.find? (named name)) :
    ofEntry table key value' = ofEntry table key value := by
  have hmodifier (name : Text) :
      modifier? modifiers'.reverse name = modifier? modifiers.reverse name := by
    rw [modifier?_reverse, modifier?_reverse, hfirst]
  simp only [ofEntry, h.getLast?_chain, h'.getLast?_chain, h.dropLast_chain, h'.dropLast_chain,
    ofIndex_congr hmodifier, ofForeignKey_congr hmodifier]

/-- Behind a modifier, others with its name are never the first with a name. -/
theorem find?_filter_behind {call : Expr.Link} (after : List Expr.Link) (name : Text) :
    (call :: after.filter (·.name ≠ call.name)).find? (named name) =
      (call :: after).find? (named name) := by
  by_cases hcall : named name call
  · rw [List.find?_cons_of_pos hcall, List.find?_cons_of_pos hcall]
  · rw [List.find?_cons_of_neg hcall, List.find?_cons_of_neg hcall, List.find?_filter]
    congr 1
    funext other
    by_cases hother : named name other
    · have hname : other.name ≠ call.name := by
        intro hsame
        apply hcall
        simpa [named, hsame] using hother
      simp [hname, hother]
    · simp [hother]

/-- The modifiers of an extra may be rearranged as long as those with one name keep their order, and
a modifier makes all that are called later with its name superfluous: the same is read, or the entry
is rejected for the same cause. An index has the columns that `on` gives, if it is called, wherever
`using` stands. -/
theorem ofEntry_of_innermost (table : Text) (key : Option Text)
    (h : Expr.Chained base modifiers value) :
    (∀ modifiers' value', Expr.Chained base modifiers' value' →
      (∀ name, modifiers'.filter (named name) = modifiers.filter (named name)) →
      ofEntry table key value' = ofEntry table key value) ∧
    (∀ before call after value', modifiers = before ++ call :: after →
      Expr.Chained base (before ++ call :: after.filter (·.name ≠ call.name)) value' →
      ofEntry table key value' = ofEntry table key value) ∧
    ∀ call, modifiers.find? (named "on") = some call →
      base.name = some "index" ∨ base.name = some "uniqueIndex" ∨ base.name = some "unique" →
      ∃ i, ofEntry table key value = .ok (.index i) ∧
        i.columns = columnNames call.arguments ∧ i.method = none := by
  refine ⟨?_, ?_, ?_⟩
  · -- the first modifier with a name is the head of those with the name
    intro modifiers' value' h' hfilter
    refine ofEntry_of_find?_eq table key h h' fun name => ?_
    rw [← List.head?_filter, ← List.head?_filter, hfilter]
  · rintro before call after value' rfl h'
    refine ofEntry_of_find?_eq table key h h' fun name => ?_
    rw [List.find?_append, List.find?_append, find?_filter_behind]
  · intro call hon hbase
    have hread : ∃ unique, ofEntry table key value =
        .index <$> ofIndex table key base.arguments modifiers.reverse unique := by
      rw [ofEntry, h.getLast?_chain, h.dropLast_chain]
      rcases hbase with hname | hname | hname
      · exact ⟨false, by simp [hname]⟩
      · exact ⟨true, by simp [hname]⟩
      · exact ⟨true, by simp [hname]⟩
    have htarget : indexTarget? modifiers.reverse = some (columnNames call.arguments, none) := by
      rw [indexTarget?, modifier?_reverse, hon]
      rfl
    obtain ⟨unique, hunique⟩ := hread
    rw [hunique, ofIndex, htarget]
    exact ⟨_, rfl, columns_restricted _ _, method_restricted _ _⟩

def emailIndex (calls : List (Text × List Expr)) : Expr :=
  (Expr.call default (.identifier default "uniqueIndex")
    [.string default "users_email"]).withMethods calls

theorem chained_emailIndex (calls : List (Text × List Expr)) :
    Expr.Chained ⟨some "uniqueIndex", [.string default "users_email"]⟩
      (calls.map fun called => ⟨some called.1, called.2⟩) (emailIndex calls) :=
  Expr.Chained.withMethods
    (.base default _ (Expr.unchained_identifier default "uniqueIndex")) calls

def columnOf (name : Text) : Expr := .memberAccess default (.identifier default "t") name

/-- Modifiers one of which is called twice, and two of which give columns. -/
def emailModifiers : List (Text × List Expr) := [
  ("using", [.string default "hash", columnOf "id"]), ("on", [columnOf "email"]),
  ("where", [.identifier default "active"]), ("on", [columnOf "id"])]

/-- An index whose modifiers are called twice and in another order. -/
theorem ofEntry_of_innermost_emailIndex :
    let read (calls : List (Text × List Expr)) := ofEntry "users" none (emailIndex calls)
    read (emailModifiers.drop 1 ++ emailModifiers.take 1) = read emailModifiers ∧
    read (emailModifiers.take 3) = read emailModifiers ∧
    ∃ i, read emailModifiers = .ok (.index i) ∧
      i.columns = [("email" : Text)] ∧ i.method = none := by
  intro read
  obtain ⟨hmoved, hthinned, hon⟩ :=
    ofEntry_of_innermost "users" none (chained_emailIndex emailModifiers)
  refine ⟨hmoved _ _ (chained_emailIndex _) fun name => ?_,
    hthinned [⟨some "using", _⟩] ⟨some "on", _⟩ [⟨some "where", _⟩, ⟨some "on", _⟩] _ rfl
      (chained_emailIndex (emailModifiers.take 3)), hon ⟨some "on", [columnOf "email"]⟩ rfl
      (.inr (.inl rfl))⟩
  by_cases husing : name = "using"
  · subst husing
    rfl
  · have hnot (arguments : List Expr) : named name ⟨some "using", arguments⟩ = false := by
      simpa [named] using Ne.symm husing
    simp [emailModifiers, List.filter_cons, hnot]

end SchemaAtlas.Extra
