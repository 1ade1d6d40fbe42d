import Mathlib.Data.List.Basic

/-! Monitors: what each event of a history may do, given what came before it. -/

/-- A state that is updated by events, and what an event may do in a state. -/
structure Monitor (σ ε : Type*) where
  next : σ → ε → σ
  permits : σ → ε → Prop

namespace Monitor

variable {σ ε : Type*} (μ : Monitor σ ε)

/-- The state after a history. -/
def after (s : σ) (log : List ε) : σ := log.foldl μ.next s

/-- Every event of a history is permitted in the state its predecessors lead to. -/
def Accepts : σ → List ε → Prop
  | _, [] => True
  | s, e :: rest => μ.permits s e ∧ Accepts (μ.next s e) rest

/-- Nothing has happened yet. -/
@[simp] theorem after_nil (s : σ) : μ.after s [] = s := rfl

/-- One event further on. -/
@[simp] theorem after_cons (s : σ) (e : ε) (rest : List ε) :
    μ.after s (e :: rest) = μ.after (μ.next s e) rest := rfl

/-- Two stretches of a history, one behind the other. -/
theorem after_append (s : σ) (early late : List ε) :
    μ.after s (early ++ late) = μ.after (μ.after s early) late := List.foldl_append ..

/-- A history is accepted when both of its stretches are. -/
theorem accepts_append (s : σ) (early late : List ε) :
    μ.Accepts s (early ++ late) ↔ μ.Accepts s early ∧ μ.Accepts (μ.after s early) late := by
  induction early generalizing s with
  | nil => simp [Accepts]
  | cons e rest ih => simp only [List.cons_append, Accepts, ih, after_cons, and_assoc]

/-- A history is extended by one more event that is permitted after it. -/
theorem accepts_concat (s : σ) (log : List ε) (e : ε) :
    μ.Accepts s (log ++ [e]) ↔ μ.Accepts s log ∧ μ.permits (μ.after s log) e := by
  rw [accepts_append]
  simp [Accepts]

/-- Any event of an accepted history is permitted after its predecessors. -/
theorem Accepts.at {μ : Monitor σ ε} {s : σ} {early late : List ε} {e : ε}
    (accepts : μ.Accepts s (early ++ e :: late)) : μ.permits (μ.after s early) e :=
  ((μ.accepts_append s early (e :: late)).mp accepts).2.1

/-- Events that are permitted in every state are accepted after every history. -/
theorem accepts_of_forall (s : σ) (log : List ε) (always : ∀ e ∈ log, ∀ s, μ.permits s e) :
    μ.Accepts s log := by
  induction log generalizing s with
  | nil => trivial
  | cons e rest ih =>
    exact ⟨always e List.mem_cons_self s,
      ih (μ.next s e) fun e member => always e (List.mem_cons_of_mem _ member)⟩

end Monitor
