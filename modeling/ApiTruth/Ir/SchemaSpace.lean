import ApiTruth.Ir.SchemaMeaning

/-!
# Schemas with components

A schema refers to components, whose schemas refer to components again.  With references unfolded
to a depth, and with any meaning of the components below that depth, a schema accepts or rejects an
instance; it accepts the instance when some depth decides so whatever lies below.

## Main definitions

* `SchemaSpace` : named schemas and how a reference names one.
* `SchemaSpace.Accepts`, `SchemaSpace.Rejects`.

## Main results

* `SchemaSpace.Accepts.not_rejects` : no instance is accepted and rejected.
-/

namespace ApiTruth.Ir

/-- Named schemas, and how the text of a reference names one. -/
structure SchemaSpace where
  resolve : String → Option String
  component : String → Option Json

namespace SchemaSpace

variable (space : SchemaSpace) (vocabulary : Vocabulary)

/-- The vocabulary in which a reference means what the component means. -/
def vocabularyWith (meaning : String → Json → Bool) : Vocabulary :=
  { vocabulary with
    ref := fun ref instance_ =>
      match space.resolve ref with
      | none => vocabulary.ref ref instance_
      | some name => meaning name instance_ }

theorem ref_vocabularyWith {ref name : String} (h : space.resolve ref = some name)
    (meaning : String → Json → Bool) (instance_ : Json) :
    (space.vocabularyWith vocabulary meaning).ref ref instance_ = meaning name instance_ := by
  simp only [vocabularyWith, h]

/-- The meaning of components with references unfolded to a depth, below which it is given. -/
def unfold (bottom : String → Json → Bool) : ℕ → String → Json → Bool
  | 0, name, instance_ => bottom name instance_
  | depth + 1, name, instance_ =>
    match space.component name with
    | none => bottom name instance_
    | some schema => accepts (space.vocabularyWith vocabulary (unfold bottom depth)) schema instance_

/-- The vocabulary with references unfolded to a depth. -/
abbrev vocabularyAt (bottom : String → Json → Bool) (depth : ℕ) : Vocabulary :=
  space.vocabularyWith vocabulary (space.unfold vocabulary bottom depth)

/-- The schema accepts the instance with references unfolded to a depth. -/
def acceptsWithin (bottom : String → Json → Bool) (depth : ℕ) (s instance_ : Json) : Bool :=
  accepts (space.vocabularyAt vocabulary bottom depth) s instance_

/-- Some depth accepts the instance whatever lies below. -/
def Accepts (s instance_ : Json) : Prop :=
  ∃ depth, ∀ bottom, space.acceptsWithin vocabulary bottom depth s instance_ = true

/-- Some depth rejects the instance whatever lies below. -/
def Rejects (s instance_ : Json) : Prop :=
  ∃ depth, ∀ bottom, space.acceptsWithin vocabulary bottom depth s instance_ = false

theorem unfold_add (bottom : String → Json → Bool) (m n : ℕ) :
    space.unfold vocabulary bottom (m + n) =
      space.unfold vocabulary (space.unfold vocabulary bottom m) n := by
  induction n with
  | zero => rfl
  | succ n ih =>
    funext name instance_
    rw [← Nat.add_assoc, unfold, unfold, ih]
    cases hcomponent : space.component name with
    | some schema => rfl
    | none =>
      cases m with
      | zero => rfl
      | succ m => simp only [unfold, hcomponent]

variable {space vocabulary}

theorem Accepts.not_rejects {s instance_ : Json} (h : space.Accepts vocabulary s instance_) :
    ¬ space.Rejects vocabulary s instance_ := by
  rintro ⟨m, hrejects⟩
  obtain ⟨n, haccepts⟩ := h
  have htrue := haccepts (space.unfold vocabulary (fun _ _ => true) m)
  have hfalse := hrejects (space.unfold vocabulary (fun _ _ => true) n)
  rw [acceptsWithin, vocabularyAt, ← unfold_add] at htrue hfalse
  rw [Nat.add_comm, htrue] at hfalse
  cases hfalse

end SchemaSpace

end ApiTruth.Ir
