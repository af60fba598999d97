import Kryvaracode.UnicodeText

namespace Kryvaracode

inductive Kind where
  | forbidden
  | notFound
  | conflict
  | validationFailed
  | serviceUnavailable
  | runtime
  | value
  | os
  | timeoutExpired
  | syntaxError
  | jsonDecode
  | other (name : Text)
  deriving DecidableEq, Repr

-- `type(exc).__name__`
def Kind.name : Kind → Text
  | .forbidden => "ForbiddenError".toList
  | .notFound => "NotFoundError".toList
  | .conflict => "ConflictError".toList
  | .validationFailed => "ValidationFailedError".toList
  | .serviceUnavailable => "ServiceUnavailableError".toList
  | .runtime => "RuntimeError".toList
  | .value => "ValueError".toList
  | .os => "OSError".toList
  | .timeoutExpired => "TimeoutExpired".toList
  | .syntaxError => "SyntaxError".toList
  | .jsonDecode => "JSONDecodeError".toList
  | .other name => name

structure Failure where
  kind : Kind
  detail : Text
  deriving DecidableEq, Repr

abbrev Result (α : Type) := Except Failure α

-- Named, so that every definition that looks a text up refers to one proof.
theorem text_lawful : LawfulBEq Text := inferInstance

def ForbiddenError (detail : Text) : Failure := ⟨.forbidden,detail⟩
def NotFoundError (detail : Text) : Failure := ⟨.notFound,detail⟩
def ConflictError (detail : Text) : Failure := ⟨.conflict,detail⟩
def ValidationFailedError (detail : Text) : Failure := ⟨.validationFailed,detail⟩
def ServiceUnavailableError (detail : Text) : Failure := ⟨.serviceUnavailable,detail⟩
def RuntimeError (detail : Text) : Failure := ⟨.runtime,detail⟩
def ValueError (detail : Text) : Failure := ⟨.value,detail⟩

-- What a session raises after a commit that failed.
def PendingRollbackError : Failure := ⟨.other "PendingRollbackError".toList,"session needs a rollback".toList⟩

-- `if text:` for a text that may be None.
def truthy (text : Option Text) : Bool := !(text.getD []).isEmpty

theorem bind_ok {first : Result α} {next : α → Result β} :
    (first >>= next) = .ok value ↔ ∃ middle, first = .ok middle ∧ next middle = .ok value := by
  cases first <;> simp [bind,Except.bind]

theorem then_ok {first : Result Unit} {next : Unit → Result β} :
    (first >>= next) = .ok value ↔ first = .ok () ∧ next () = .ok value := by
  cases first <;> simp [bind,Except.bind]

theorem mapM_exact {f : α → Result β} {quiet : α → Prop} {made : α → β}
    (each : ∀ item value, f item = .ok value ↔ quiet item ∧ value = made item) (items : List α) (values : List β) :
    items.mapM f = .ok values ↔ (∀ item ∈ items, quiet item) ∧ values = items.map made := by
  induction items generalizing values with
  | nil =>
      rw [List.mapM_nil,List.map_nil]
      constructor
      · intro same
        exact ⟨by simp,(Except.ok.inj same).symm⟩
      · rintro ⟨_,rfl⟩
        rfl
  | cons item rest ih =>
      rw [List.mapM_cons,List.forall_mem_cons,List.map_cons,bind_ok]
      constructor
      · rintro ⟨value,first,later⟩
        obtain ⟨others,others_are,same⟩ := bind_ok.mp later
        obtain ⟨calm,rfl⟩ := (each item value).mp first
        obtain ⟨calms,rfl⟩ := (ih others).mp others_are
        exact ⟨⟨calm,calms⟩,(Except.ok.inj same).symm⟩
      · rintro ⟨⟨calm,calms⟩,rfl⟩
        refine ⟨made item,(each item _).mpr ⟨calm,rfl⟩,?_⟩
        apply bind_ok.mpr
        exact ⟨rest.map made,(ih _).mpr ⟨calms,rfl⟩,rfl⟩

end Kryvaracode
