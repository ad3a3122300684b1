/-!
Programs that ask for things and go on by the reply.
-/

namespace Localnet

/-- A value, or a request with what to do for each reply to it. -/
inductive Program (Request : Type) (Reply : Request → Type) (α : Type) : Type where
  | done (a : α)
  | ask (request : Request) (next : Reply request → Program Request Reply α)

namespace Program

variable {Request : Type} {Reply : Request → Type} {α β γ : Type}

def bind : Program Request Reply α → (α → Program Request Reply β) → Program Request Reply β
  | .done a, f => f a
  | .ask request next, f => .ask request fun reply => (next reply).bind f

instance : Monad (Program Request Reply) where
  pure := .done
  bind := bind

@[simp] theorem done_bind (a : α) (f : α → Program Request Reply β) : (done a).bind f = f a := rfl

@[simp] theorem bind_done (p : Program Request Reply α) : p.bind .done = p := by
  induction p with
  | done a => rfl
  | ask request next ih => simp [bind, ih]

theorem bind_assoc (p : Program Request Reply α) (f : α → Program Request Reply β)
    (g : β → Program Request Reply γ) : (p.bind f).bind g = p.bind fun a => (f a).bind g := by
  induction p with
  | done a => rfl
  | ask request next ih => simp [bind, ih]

instance : LawfulMonad (Program Request Reply) :=
  LawfulMonad.mk' (Program Request Reply) bind_done (fun _ _ => rfl) bind_assoc

end Program

end Localnet
