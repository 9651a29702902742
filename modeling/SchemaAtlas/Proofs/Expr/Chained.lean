import SchemaAtlas.Expr.Basic

/-!
# Builder chains

A builder chain starts with a call that is no method of another call, and goes on with methods that
are called on what was built so far, which may stand in parentheses. It is read from the outermost
call inward, so the calls come out in the reverse of the order in which they are made.
-/

namespace SchemaAtlas.Expr

theorem chain_unwrap (e : Expr) : e.unwrap.chain = e.chain := by
  induction e using unwrap.induct with
  | case1 x e ih => exact ih
  | case2 e h => cases e <;> simp_all [unwrap]

/-- Only calls are chains. -/
theorem chain_eq_nil {e : Expr} (h : ∀ x callee arguments, e.unwrap ≠ .call x callee arguments) :
    e.chain = [] := by
  induction e using unwrap.induct with
  | case1 x e ih => exact ih h
  | case2 e hparens =>
    cases e with
    | call x callee arguments => exact absurd rfl (h x callee arguments)
    | parenthesized x e => exact absurd rfl (hparens x e)
    | _ => rfl

def Link.named (name : Text) (call : Link) : Bool := call.name = some name

def Unchained (callee : Expr) : Prop :=
  ∀ z receiver property, callee = .memberAccess z receiver property →
    ∀ x callee' arguments, receiver.unwrap ≠ .call x callee' arguments

theorem unchained_identifier (x : Extent) (name : Text) : Unchained (.identifier x name) := by
  rintro z receiver property ⟨⟩

theorem unchained_member (y x : Extent) (object property : Text) :
    Unchained (.memberAccess y (.identifier x object) property) := by
  rintro z receiver property ⟨⟩ x callee' arguments ⟨⟩

/-- A chain that starts with the call `base`, on which `methods` are called one after the other. -/
inductive Chained : Link → List Link → Expr → Prop
  | base (x : Extent) {callee : Expr} (arguments : List Expr) (h : callee.Unchained) :
      Chained ⟨callee.invokedName?, arguments⟩ [] (.call x callee arguments)
  | method (x y : Extent) {base : Link} {methods : List Link} {receiver : Expr} (name : Text)
      (arguments : List Expr) (h : Chained base methods receiver) :
      Chained base (methods ++ [⟨some name, arguments⟩])
        (.call x (.memberAccess y receiver name) arguments)
  | parenthesized (x : Extent) {base : Link} {methods : List Link} {e : Expr}
      (h : Chained base methods e) : Chained base methods (.parenthesized x e)

variable {base : Link} {methods : List Link} {e : Expr}

theorem chain_of_unchained {x : Extent} {callee : Expr} {arguments : List Expr}
    (h : callee.Unchained) :
    (call x callee arguments).chain = [⟨callee.invokedName?, arguments⟩] := by
  cases callee with
  | memberAccess z receiver property =>
    have hreceiver := chain_eq_nil (h z receiver property rfl)
    rw [chain, hreceiver, invokedName?]
  | _ => rfl

/-- A chain is read from the last method to the first, and then its first call. -/
theorem Chained.chain_eq (h : Chained base methods e) : e.chain = methods.reverse ++ [base] := by
  induction h with
  | base x arguments h => rw [chain_of_unchained h]; rfl
  | method x y name arguments _ ih => rw [chain, ih, List.reverse_append]; rfl
  | parenthesized x _ ih => exact ih

/-- The methods and the first call as a reader of the chain takes them apart. -/
theorem Chained.getLast?_chain (h : Chained base methods e) : e.chain.getLast? = some base := by
  rw [h.chain_eq, List.getLast?_concat]

theorem Chained.dropLast_chain (h : Chained base methods e) :
    e.chain.dropLast = methods.reverse := by
  rw [h.chain_eq, List.dropLast_concat]

def withMethods (e : Expr) (calls : List (Text × List Expr)) : Expr :=
  calls.foldl (fun receiver called =>
    .call default (.memberAccess default receiver called.1) called.2) e

/-- Methods may be called in any number on what was built. -/
theorem Chained.withMethods (h : Chained base methods e) (calls : List (Text × List Expr)) :
    Chained base (methods ++ calls.map fun called => ⟨some called.1, called.2⟩)
      (e.withMethods calls) := by
  induction calls generalizing methods e with
  | nil => simpa [Expr.withMethods] using h
  | cons called rest ih =>
    have hcalled := ih (.method default default called.1 called.2 h)
    rwa [List.append_assoc] at hcalled

end SchemaAtlas.Expr
