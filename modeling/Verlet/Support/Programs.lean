import Verlet.Support.Processes

/-!
# Support — Programs

Processes that may fail, with what is to be done where they do: `guarding p release` runs `release`
where `p` fails, and fails as `p` did.  A value that is dropped on every way out but one is such a
guard; one that is dropped on every way out is `ending p release`.

`Settles rely asks answers A B p s`: whatever the others do, `p` asks what it may, what it succeeds
with is in `A`, and what it fails with in `B`.

* `Settles.bind`, `Settles.await`, `Settles.settle`, `Settles.guarding`, `Settles.ending`: one rule for
  each way to build a program.
* `Settles.yields`: what a program yields whatever it is answered, it settles in.
-/

namespace Verlet.Support.Proc

variable {δ ε : Type} {ρ : ε → Type} {α β σ : Type}

/-- Make one call. -/
def await (e : ε) : ExceptT δ (Proc ε ρ) (ρ e) := ExceptT.lift (Proc.perform e)

def settle (result : Except δ α) : ExceptT δ (Proc ε ρ) α := ExceptT.mk (.done result)

/-- Run the program, and where it fails, first what is to be done then. -/
def guarding (p : ExceptT δ (Proc ε ρ) α) (release : ExceptT δ (Proc ε ρ) Unit) :
    ExceptT δ (Proc ε ρ) α :=
  tryCatch p fun err => do release; throw err

/-- Run the program, and whatever it comes to, then what is to be done at its end. -/
def ending (p : ExceptT δ (Proc ε ρ) α) (release : Proc ε ρ Unit) : ExceptT δ (Proc ε ρ) α :=
  ExceptT.mk do
    let result ← p.run
    let _ ← release
    return result

variable {rely : σ → σ → Prop} {asks : ε → σ → Prop} {answers : (e : ε) → σ → ρ e → σ → Prop}

/-- What a program that succeeds, or fails, ends in. -/
def EndsIn (A : α → σ → Prop) (B : δ → σ → Prop) : Except δ α → σ → Prop
  | .ok a,    s => A a s
  | .error e, s => B e s

/-- The program asks what it may, and ends in `A` if it succeeds and in `B` if it fails. -/
def Settles (rely : σ → σ → Prop) (asks : ε → σ → Prop) (answers : (e : ε) → σ → ρ e → σ → Prop)
    (A : α → σ → Prop) (B : δ → σ → Prop) (p : ExceptT δ (Proc ε ρ) α) (s : σ) : Prop :=
  p.run.Meets rely asks answers (EndsIn A B) s

variable {A A' : α → σ → Prop} {B B' : δ → σ → Prop} {C : β → σ → Prop} {s : σ}

variable {p : ExceptT δ (Proc ε ρ) α}

theorem Settles.imp (hA : ∀ a s, A a s → A' a s) (hB : ∀ e s, B e s → B' e s)
    (h : Settles rely asks answers A B p s) : Settles rely asks answers A' B' p s := by
  refine Meets.imp (fun result s' hs' => ?_) h
  cases result with
  | ok a => exact hA a s' hs'
  | error e => exact hB e s' hs'

theorem Settles.pure {a : α} (h : ∀ s', rely s s' → A a s') :
    Settles rely asks answers A B (Pure.pure a : ExceptT δ (Proc ε ρ) α) s := h

theorem Settles.throw {e : δ} (h : ∀ s', rely s s' → B e s') :
    Settles rely asks answers A B (MonadExcept.throw e : ExceptT δ (Proc ε ρ) α) s := h

theorem Settles.frame {P : σ → Prop} (hrely : ∀ s s', P s → rely s s' → P s')
    (hcall : ∀ e s r s', P s → answers e s r s' → P s') (hP : P s)
    (h : Settles rely asks answers A B p s) :
    Settles rely asks answers (fun a s' => A a s' ∧ P s') (fun e s' => B e s' ∧ P s') p s := by
  refine Meets.imp (fun result s' hs' => ?_) (Meets.frame hrely hcall hP h)
  cases result with
  | ok a => exact hs'
  | error e => exact hs'

variable {f : α → ExceptT δ (Proc ε ρ) β}

/-- **What follows a success is asked of the success**, and a failure fails the whole. -/
theorem Settles.bind (hrefl : ∀ a, rely a a) (hB : ∀ e s s', B e s → rely s s' → B e s')
    (h : Settles rely asks answers (fun a s' => Settles rely asks answers C B (f a) s') B p s) :
    Settles rely asks answers C B (p >>= f) s := by
  refine Meets.bind hrefl h fun result s' hs' => ?_
  cases result with
  | ok a => exact hs'
  | error e => exact fun s'' hs'' => hB e s' s'' hs' hs''

theorem Settles.await {e : ε} {f : ρ e → ExceptT δ (Proc ε ρ) β}
    (h : ∀ s', rely s s' → asks e s' ∧ ∀ r s'', answers e s' r s'' →
      Settles rely asks answers C B (f r) s'') :
    Settles rely asks answers C B (Proc.await e >>= f) s := h

theorem Settles.settle {result : Except δ α}
    (hok : ∀ a, result = .ok a → Settles rely asks answers C B (f a) s)
    (herr : ∀ e, result = .error e → ∀ s', rely s s' → B e s') :
    Settles rely asks answers C B (Proc.settle result >>= f) s := by
  cases result with
  | ok a => exact hok a rfl
  | error e => exact herr e rfl

/-- **What handles a failure settles what the failure left.** -/
theorem Settles.tryCatch (hrefl : ∀ a, rely a a) (hA : ∀ a s s', A a s → rely s s' → A a s')
    {D : δ → σ → Prop} {handler : δ → ExceptT δ (Proc ε ρ) α}
    (h : Settles rely asks answers A D p s)
    (hD : ∀ e s', D e s' → Settles rely asks answers A B (handler e) s') :
    Settles rely asks answers A B (MonadExcept.tryCatch p handler) s := by
  refine Meets.bind hrefl h fun result s' hs' => ?_
  cases result with
  | ok a => exact fun s'' hs'' => hA a s' s'' hs' hs''
  | error e => exact hD e s' hs'

/-- **A guard ends what it guards**, where that fails. -/
theorem Settles.guarding (hrefl : ∀ a, rely a a) (hB : ∀ e s s', B e s → rely s s' → B e s')
    {release : ExceptT δ (Proc ε ρ) Unit} (hA : ∀ a s s', A a s → rely s s' → A a s')
    (h : Settles rely asks answers A
      (fun e s' => Settles rely asks answers (fun _ => B e) B release s') p s) :
    Settles rely asks answers A B (Proc.guarding p release) s := by
  refine Meets.bind hrefl h fun result s' hs' => ?_
  cases result with
  | ok a => exact fun s'' hs'' => hA a s' s'' hs' hs''
  | error e =>
    refine Settles.bind hrefl hB (Settles.imp (fun _ s'' hs'' => ?_) (fun _ _ hs'' => hs'') hs')
    exact Settles.throw fun s₁ hs₁ => hB e s'' s₁ hs'' hs₁

/-- A program whose failure is looked at: what follows takes it up as it takes up a success. -/
theorem Settles.attempt (hrefl : ∀ a, rely a a) {D : δ → σ → Prop}
    {f : Except δ α → ExceptT δ (Proc ε ρ) β}
    (h : Settles rely asks answers
      (fun a s' => ∀ s'', rely s' s'' → Settles rely asks answers C D (f (.ok a)) s'')
      (fun e s' => ∀ s'', rely s' s'' → Settles rely asks answers C D (f (.error e)) s'') p s) :
    Settles rely asks answers C D (ExceptT.lift p.run >>= f) s := by
  refine Meets.bind hrefl (Meets.bind hrefl h fun result s' hs' => ?_) fun result s' hs' => hs'
  intro s'' hs''
  cases result with
  | ok a => exact hs' s'' hs''
  | error e => exact hs' s'' hs''

theorem Settles.ending (hrefl : ∀ a, rely a a) (htrans : ∀ a b c, rely a b → rely b c → rely a c)
    (hA : ∀ a s s', A a s → rely s s' → A a s') (hB : ∀ e s s', B e s → rely s s' → B e s')
    {P : ε → Prop} {release : Proc ε ρ Unit} (hrelease : release.Only P)
    (hquiet : ∀ e, P e → ∀ s, asks e s ∧ ∀ r s', answers e s r s' → rely s s')
    (h : Settles rely asks answers A B p s) :
    Settles rely asks answers A B (Proc.ending p release) s := by
  refine Meets.bind hrefl h fun result s' hs' => ?_
  refine Meets.bind hrefl (Only.meets htrans hquiet hrelease s') fun _ s'' hs'' s₁ hs₁ => ?_
  cases result with
  | ok a => exact hA a s' s₁ hs' (htrans _ _ _ hs'' hs₁)
  | error e => exact hB e s' s₁ hs' (htrans _ _ _ hs'' hs₁)

/-! ### What a program yields -/

/-- Whatever the program is answered, what it succeeds with is in `Q`. -/
def Yields (Q : α → Prop) (p : ExceptT δ (Proc ε ρ) α) : Prop :=
  p.run.Gives fun result => ∀ a, result = .ok a → Q a

variable {Q : α → Prop}

theorem Yields.pure {a : α} (h : Q a) : Yields Q (Pure.pure a : ExceptT δ (Proc ε ρ) α) := by
  rintro a' ⟨⟩
  exact h

theorem Yields.throw {e : δ} :
    Yields Q (MonadExcept.throw e : ExceptT δ (Proc ε ρ) α) := nofun

theorem Yields.bind {P : α → Prop} {Q : β → Prop} (h : Yields P p) (hf : ∀ a, P a → Yields Q (f a)) :
    Yields Q (p >>= f) := by
  refine Gives.bind h fun result hresult => ?_
  cases result with
  | ok a => exact hf a (hresult a rfl)
  | error e => exact nofun

theorem Yields.after {Q : β → Prop} (hf : ∀ a, Yields Q (f a)) : Yields Q (p >>= f) := by
  have hany : ∀ p : Proc ε ρ (Except δ α), p.Gives fun result => ∀ a, result = .ok a → True := by
    intro p
    induction p with
    | done a => exact fun _ _ => trivial
    | call e k ih => exact ih
  exact Yields.bind (hany p.run) fun a _ => hf a

theorem Yields.guarding {release : ExceptT δ (Proc ε ρ) Unit} (h : Yields Q p) :
    Yields Q (Proc.guarding p release) := by
  refine Gives.bind h fun result hresult => ?_
  cases result with
  | ok a => exact hresult
  | error e => exact Yields.after fun _ => .throw

theorem Settles.yields (h : Settles rely asks answers A B p s) (hp : Yields Q p) :
    Settles rely asks answers (fun a s' => A a s' ∧ Q a) B p s := by
  refine Meets.imp (fun result s' hs' => ?_) (Meets.gives h hp)
  cases result with
  | ok a => exact ⟨hs'.1, hs'.2 a rfl⟩
  | error e => exact hs'.1

/-! ### What calls a program makes -/

/-- The program makes no other calls than these. -/
def Makes (P : ε → Prop) (p : ExceptT δ (Proc ε ρ) α) : Prop := Only P p.run

variable {P : ε → Prop}

theorem Makes.pure {a : α} : Makes P (Pure.pure a : ExceptT δ (Proc ε ρ) α) := trivial

theorem Makes.throw {e : δ} : Makes P (MonadExcept.throw e : ExceptT δ (Proc ε ρ) α) := trivial

theorem Makes.settle {result : Except δ α} :
    Makes P (Proc.settle result : ExceptT δ (Proc ε ρ) α) := trivial

theorem Makes.await {e : ε} (h : P e) : Makes P (Proc.await e : ExceptT δ (Proc ε ρ) (ρ e)) :=
  ⟨h, fun _ => trivial⟩

theorem Makes.bind (h : Makes P p) (hf : ∀ a, Makes P (f a)) : Makes P (p >>= f) := by
  refine Only.bind h fun result => ?_
  cases result with
  | ok a => exact hf a
  | error e => exact trivial

theorem Makes.tryCatch {handler : δ → ExceptT δ (Proc ε ρ) α} (h : Makes P p)
    (hhandler : ∀ e, Makes P (handler e)) : Makes P (MonadExcept.tryCatch p handler) := by
  refine Only.bind h fun result => ?_
  cases result with
  | ok a => exact trivial
  | error e => exact hhandler e

/-- **A program of quiet calls** leaves what it relies on. -/
theorem Makes.settles (htrans : ∀ a b c, rely a b → rely b c → rely a c)
    (hquiet : ∀ e, P e → ∀ s, asks e s ∧ ∀ r s', answers e s r s' → rely s s') (h : Makes P p)
    (s : σ) : Settles rely asks answers (fun _ => rely s) (fun _ => rely s) p s := by
  refine Meets.imp (fun result s' hs' => ?_) (Only.meets htrans hquiet h s)
  cases result with
  | ok a => exact hs'
  | error e => exact hs'

end Verlet.Support.Proc
