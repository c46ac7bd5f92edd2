import Mathlib.Logic.Basic

/-!
# Support — Processes

Sequential programs that await one call at a time, as trees: a process is done, or makes a call and
goes on with what the call answers.  Between two calls of one process anything else may happen to
the state they work on, so a process is reasoned about against what the others may do, its `rely`.

`Meets rely asks answers Q p s`: whatever the others do from `s` on, every call of `p` is one that
`asks` allows where it is made, and where `p` ends `Q` holds of its result, and goes on to hold; all
of it as long as the calls answer as `answers` says.

`Runs serves p moves a` is one such run: `p` ends with `a`, and each of its own calls moves the state
as `moves` lists, whatever moved it in between.

`Does rely asks answers Q p s` is the same of a process that may fail: `Q` is what it succeeds with.

`Upto serves others p s s' o` is one that may stop on the way; `Meets.upto` is what it keeps.

`Only P p`: `p` makes no other calls than those in `P`.  `Gives Q p`: it ends with nothing but what is
in `Q`.

* `Meets.mono`: what the others do keeps it; `Meets.bind` composes, and `Does.bind` does.
* `Meets.call_iff` and `Meets.done_iff` take a process one call at a time.
-/

namespace Verlet.Support

/-- A process over the calls `ε`, a call `e` answering with a `ρ e`. -/
inductive Proc (ε : Type) (ρ : ε → Type) (α : Type) where
  | done (a : α)
  | call (e : ε) (k : ρ e → Proc ε ρ α)

namespace Proc

variable {ε : Type} {ρ : ε → Type} {α β σ : Type}

/-- Go on with the result. -/
def bind : Proc ε ρ α → (α → Proc ε ρ β) → Proc ε ρ β
  | .done a,   f => f a
  | .call e k, f => .call e fun r => (k r).bind f

instance : Monad (Proc ε ρ) where
  pure := .done
  bind := .bind

def perform (e : ε) : Proc ε ρ (ρ e) := .call e .done

@[simp] theorem perform_bind (e : ε) (f : ρ e → Proc ε ρ β) : perform e >>= f = .call e f := rfl

theorem bind_done (p : Proc ε ρ α) : p.bind .done = p := by
  induction p with
  | done a => rfl
  | call e k ih => exact congrArg (Proc.call e) (funext ih)

theorem bind_bind {γ : Type} (p : Proc ε ρ α) (f : α → Proc ε ρ β) (g : β → Proc ε ρ γ) :
    (p.bind f).bind g = p.bind fun a => (f a).bind g := by
  induction p with
  | done a => rfl
  | call e k ih => exact congrArg (Proc.call e) (funext ih)

instance : LawfulMonad (Proc ε ρ) := LawfulMonad.mk' (Proc ε ρ) bind_done (fun _ _ => rfl) bind_bind

variable {rely : σ → σ → Prop} {asks : ε → σ → Prop} {answers : (e : ε) → σ → ρ e → σ → Prop}

/-- The process asks what it may and ends in `Q`, whatever the others do within `rely`. -/
def Meets (rely : σ → σ → Prop) (asks : ε → σ → Prop) (answers : (e : ε) → σ → ρ e → σ → Prop)
    (Q : α → σ → Prop) : Proc ε ρ α → σ → Prop
  | .done a,   s => ∀ s', rely s s' → Q a s'
  | .call e k, s => ∀ s', rely s s' → asks e s' ∧
      ∀ r s'', answers e s' r s'' → (k r).Meets rely asks answers Q s''

variable {s : σ}

theorem Meets.perform {Q : β → σ → Prop} {e : ε} {f : ρ e → Proc ε ρ β}
    (h : ∀ s', rely s s' → asks e s' ∧
      ∀ r s'', answers e s' r s'' → (f r).Meets rely asks answers Q s'') :
    (Proc.perform e >>= f).Meets rely asks answers Q s := h

variable {p : Proc ε ρ α}

theorem Meets.mono (htrans : ∀ a b c, rely a b → rely b c → rely a c) {Q : α → σ → Prop} {s' : σ}
    (h : p.Meets rely asks answers Q s) (hs : rely s s') : p.Meets rely asks answers Q s' := by
  cases p with
  | done a => exact fun s'' hs' => h s'' (htrans _ _ _ hs hs')
  | call e k => exact fun s'' hs' => h s'' (htrans _ _ _ hs hs')

theorem Meets.imp {Q Q' : α → σ → Prop} (hQ : ∀ a s, Q a s → Q' a s)
    (h : p.Meets rely asks answers Q s) : p.Meets rely asks answers Q' s := by
  induction p generalizing s with
  | done a => exact fun s' hs' => hQ a s' (h s' hs')
  | call e k ih =>
    intro s' hs'
    obtain ⟨hask, hrest⟩ := h s' hs'
    exact ⟨hask, fun r s'' hanswer => ih r (hrest r s'' hanswer)⟩

theorem Meets.asking {asks' : ε → σ → Prop} (hasks : ∀ e s, asks e s → asks' e s) {Q : α → σ → Prop}
    (h : p.Meets rely asks answers Q s) : p.Meets rely asks' answers Q s := by
  induction p generalizing s with
  | done a => exact h
  | call e k ih =>
    intro s' hs'
    obtain ⟨hask, hrest⟩ := h s' hs'
    exact ⟨hasks e s' hask, fun r s'' hanswer => ih r (hrest r s'' hanswer)⟩

variable {f : α → Proc ε ρ β}

/-- **A process meets what its parts meet in turn.** -/
theorem Meets.bind (hrefl : ∀ a, rely a a) {P : α → σ → Prop} {Q : β → σ → Prop}
    (h : p.Meets rely asks answers P s) (hf : ∀ a s', P a s' → (f a).Meets rely asks answers Q s') :
    (p >>= f).Meets rely asks answers Q s := by
  induction p generalizing s with
  | done a => exact hf a s (h s (hrefl s))
  | call e k ih =>
    intro s' hs'
    obtain ⟨hask, hrest⟩ := h s' hs'
    exact ⟨hask, fun r s'' hanswer => ih r (hrest r s'' hanswer)⟩

theorem Meets.frame {P : σ → Prop} (hrely : ∀ s s', P s → rely s s' → P s')
    (hcall : ∀ e s r s', P s → answers e s r s' → P s') {Q : α → σ → Prop} (hP : P s)
    (h : p.Meets rely asks answers Q s) :
    p.Meets rely asks answers (fun a s' => Q a s' ∧ P s') s := by
  induction p generalizing s with
  | done a => exact fun s' hs' => ⟨h s' hs', hrely s s' hP hs'⟩
  | call e k ih =>
    intro s' hs'
    obtain ⟨hask, hrest⟩ := h s' hs'
    exact ⟨hask, fun r s'' hanswer =>
      ih r (hcall e s' r s'' (hrely s s' hP hs') hanswer) (hrest r s'' hanswer)⟩

/-- The process makes no other calls than these, whatever it is answered. -/
def Only (P : ε → Prop) : Proc ε ρ α → Prop
  | .done _   => True
  | .call e k => P e ∧ ∀ r, (k r).Only P

variable {P : ε → Prop}

theorem Only.bind (h : p.Only P) (hf : ∀ a, (f a).Only P) : (p >>= f).Only P := by
  induction p with
  | done a => exact hf a
  | call e k ih => exact ⟨h.1, fun r => ih r (h.2 r)⟩

theorem Only.imp {P' : ε → Prop} (hP : ∀ e, P e → P' e) (h : p.Only P) : p.Only P' := by
  induction p with
  | done a => exact trivial
  | call e k ih => exact ⟨hP e h.1, fun r => ih r (h.2 r)⟩

/-- **A process that makes no other calls than quiet ones is quiet.** -/
theorem Only.meets (htrans : ∀ a b c, rely a b → rely b c → rely a c)
    (hquiet : ∀ e, P e → ∀ s, asks e s ∧ ∀ r s', answers e s r s' → rely s s') (h : p.Only P)
    (s : σ) : p.Meets rely asks answers (fun _ s' => rely s s') s := by
  induction p generalizing s with
  | done a => exact fun s' hs' => hs'
  | call e k ih =>
    intro s' hs'
    obtain ⟨hask, hanswer⟩ := hquiet e h.1 s'
    refine ⟨hask, fun r s'' hr => ?_⟩
    have hs'' : rely s s'' := htrans _ _ _ hs' (hanswer r s'' hr)
    exact (ih r (h.2 r) s'').imp fun _ s₁ hs₁ => htrans _ _ _ hs'' hs₁

/-- Whatever the process is answered, what it ends with is in `Q`. -/
def Gives (Q : α → Prop) : Proc ε ρ α → Prop
  | .done a   => Q a
  | .call _ k => ∀ r, (k r).Gives Q

theorem Gives.bind {P : α → Prop} {Q : β → Prop} (h : p.Gives P) (hf : ∀ a, P a → (f a).Gives Q) :
    (p >>= f).Gives Q := by
  induction p with
  | done a => exact hf a h
  | call e k ih => exact fun r => ih r (h r)

theorem Meets.gives {Q : α → σ → Prop} {P : α → Prop} (h : p.Meets rely asks answers Q s)
    (hp : p.Gives P) : p.Meets rely asks answers (fun a s' => Q a s' ∧ P a) s := by
  induction p generalizing s with
  | done a => exact fun s' hs' => ⟨h s' hs', hp⟩
  | call e k ih =>
    intro s' hs'
    obtain ⟨hask, hrest⟩ := h s' hs'
    exact ⟨hask, fun r s'' hanswer => ih r (hrest r s'' hanswer) (hp r)⟩

/-- A run of a process: its calls, each with the state it finds and the state it leaves. -/
inductive Runs (serves : (e : ε) → σ → ρ e → σ → Prop) : Proc ε ρ α → List (σ × σ) → α → Prop
  | done (a : α) : Runs serves (.done a) [] a
  | call {e : ε} {k : ρ e → Proc ε ρ α} {r : ρ e} {s s' : σ} {moves : List (σ × σ)} {a : α}
      (hserves : serves e s r s') (hrest : Runs serves (k r) moves a) :
      Runs serves (.call e k) ((s, s') :: moves) a

/-- As far as a process gets: it may stop for good before any of its calls, and between them the
others move the state. -/
inductive Upto (serves : (e : ε) → σ → ρ e → σ → Prop) (others : σ → σ → Prop) :
    Proc ε ρ α → σ → σ → Option α → Prop
  | stop (p : Proc ε ρ α) (s : σ) : Upto serves others p s s none
  | done (a : α) (s : σ) : Upto serves others (.done a) s s (some a)
  | call {e : ε} {k : ρ e → Proc ε ρ α} {r : ρ e} {s s' s'' : σ} {o : Option α}
      (hserves : serves e s r s') (hrest : Upto serves others (k r) s' s'' o) :
      Upto serves others (.call e k) s s'' o
  | other {p : Proc ε ρ α} {s s' s'' : σ} {o : Option α} (h : others s s')
      (hrest : Upto serves others p s' s'' o) : Upto serves others p s s'' o

variable {serves : (e : ε) → σ → ρ e → σ → Prop}

/-- **Wherever a process stops**, what its calls and the others keep is kept, and if it got to its
end, then to what it meets. -/
theorem Meets.upto {good : σ → Prop} {others : σ → σ → Prop} (hrefl : ∀ a, rely a a)
    (htrans : ∀ a b c, rely a b → rely b c → rely a c)
    (hcall : ∀ e s r s', good s → asks e s → serves e s r s' → good s' ∧ answers e s r s')
    (hother : ∀ s s', good s → others s s' → good s' ∧ rely s s') {Q : α → σ → Prop} {s' : σ}
    {o : Option α} (hgood : good s) (h : p.Meets rely asks answers Q s)
    (hrun : p.Upto serves others s s' o) : good s' ∧ ∀ a, o = some a → Q a s' := by
  induction hrun with
  | stop p s => exact ⟨hgood, fun _ h => nomatch h⟩
  | done a s =>
    refine ⟨hgood, fun a' ha' => ?_⟩
    obtain rfl := Option.some.inj ha'
    exact h s (hrefl s)
  | call hserves _ ih =>
    obtain ⟨hask, hrest⟩ := h _ (hrefl _)
    obtain ⟨hgood', hanswer⟩ := hcall _ _ _ _ hgood hask hserves
    exact ih hgood' (hrest _ _ hanswer)
  | other hmoved _ ih =>
    obtain ⟨hgood', hrely⟩ := hother _ _ hgood hmoved
    exact ih hgood' (h.mono htrans hrely)

/-- What a process answers, and the state it leaves, where nothing else happens. -/
def alone (serve : (e : ε) → σ → ρ e × σ) : Proc ε ρ α → σ → α × σ
  | .done a,   s => (a, s)
  | .call e k, s => (k (serve e s).1).alone serve (serve e s).2

/-- The moves of a process where nothing else happens. -/
def movesAlone (serve : (e : ε) → σ → ρ e × σ) : Proc ε ρ α → σ → List (σ × σ)
  | .done _,   _ => []
  | .call e k, s => (s, (serve e s).2) :: (k (serve e s).1).movesAlone serve (serve e s).2

variable {serve : (e : ε) → σ → ρ e × σ}

theorem runs_alone (hserve : ∀ e s, serves e s (serve e s).1 (serve e s).2) (p : Proc ε ρ α) (s : σ) :
    p.Runs serves (p.movesAlone serve s) (p.alone serve s).1 := by
  induction p generalizing s with
  | done a => exact .done a
  | call e k ih => exact .call (hserve e s) (ih _ _)

theorem upto_alone {others : σ → σ → Prop} (hserve : ∀ e s, serves e s (serve e s).1 (serve e s).2)
    (p : Proc ε ρ α) (s : σ) :
    p.Upto serves others s (p.alone serve s).2 (some (p.alone serve s).1) := by
  induction p generalizing s with
  | done a => exact .done a s
  | call e k ih => exact .call (hserve e s) (ih _ _)

/-- **What a process meets whatever the others do, it meets alone.** -/
theorem Meets.alone (hrefl : ∀ a, rely a a) {Q : α → σ → Prop}
    (hserve : ∀ e s, answers e s (serve e s).1 (serve e s).2) (h : p.Meets rely asks answers Q s) :
    Q (p.alone serve s).1 (p.alone serve s).2 := by
  induction p generalizing s with
  | done a => exact h s (hrefl s)
  | call e k ih => exact ih _ ((h s (hrefl s)).2 _ _ (hserve e s))

/-! ### Processes that may fail -/

section
variable {δ : Type}

/-- The process asks what it may, and if it succeeds, then in `Q`. -/
def Does (rely : σ → σ → Prop) (asks : ε → σ → Prop) (answers : (e : ε) → σ → ρ e → σ → Prop)
    (Q : α → σ → Prop) (p : ExceptT δ (Proc ε ρ) α) (s : σ) : Prop :=
  p.run.Meets rely asks answers (fun result s' => ∀ a, result = .ok a → Q a s') s

variable {Q : α → σ → Prop}

theorem Does.imp {Q' : α → σ → Prop} (hQ : ∀ a s, Q a s → Q' a s) {p : ExceptT δ (Proc ε ρ) α}
    (h : Does rely asks answers Q p s) : Does rely asks answers Q' p s :=
  Meets.imp (fun _ s' hs a ha => hQ a s' (hs a ha)) h

theorem Does.pure {a : α} (h : ∀ s', rely s s' → Q a s') :
    Does rely asks answers Q (Pure.pure a : ExceptT δ (Proc ε ρ) α) s := by
  intro s' hs' a' ha'
  cases ha'
  exact h s' hs'

theorem Does.fail {e : δ} : Does rely asks answers Q (throw e : ExceptT δ (Proc ε ρ) α) s := by
  intro s' _ a ha
  cases ha

/-- **What follows a success is all that is asked of a composite.** -/
theorem Does.bind (hrefl : ∀ a, rely a a) {Q' : β → σ → Prop} {p : ExceptT δ (Proc ε ρ) α}
    {f : α → ExceptT δ (Proc ε ρ) β}
    (h : Does rely asks answers (fun a s' => Does rely asks answers Q' (f a) s') p s) :
    Does rely asks answers Q' (p >>= f) s := by
  refine Meets.bind hrefl h fun result s' hs' => ?_
  cases result with
  | ok a => exact hs' a rfl
  | error e =>
    intro s'' _ b hb
    cases hb

end

end Proc

end Verlet.Support
