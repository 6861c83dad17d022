import Retrace.Proofs.Completion.Step

/-!
# Runs under a policy that changes its answers

What the policy answers in a call has no influence on what the calls before it have made.  So a move
is a step of the same workspace under another policy, and what is known of a step is known of a
move: the tables agree whatever the policy is (`Coherent.withPolicy`), and so does every invariant
that does not read it (`Kept.afterMoves`).

A run under one policy is the run of moves that all have this policy (`Coherent.runMoves_under`).
-/

namespace Retrace.Workspace

variable {workspace changed : Workspace} {moves : List Move}

/-- The tables agree or not whatever the policy is. -/
theorem Coherent.withPolicy (h : workspace.Coherent) (policy : CommitPolicy) :
    (workspace.withPolicy policy).Coherent where
  sound := h.sound
  session_source := h.session_source
  tracer_copy := h.tracer_copy
  tracer_open := h.tracer_open
  copy_open := h.copy_open
  copy_listed := h.copy_listed
  source_open := h.source_open
  generation_le := h.generation_le
  generation_inj := h.generation_inj
  baseline_le := h.baseline_le

/-- The workspace that the settings make. -/
theorem coherent_withConfig (config : Config) : (withConfig config).Coherent :=
  coherent_initial config config.commit.policy

/-- What a call asks for does not depend on the policy. -/
theorem Call.starts_withPolicy_iff {policy : CommitPolicy} {call : Call} {source : DocumentId}
    {span : Span} {replacement : String} :
    call.Starts (workspace.withPolicy policy) source span replacement ↔
      call.Starts workspace source span replacement := by
  constructor
  · intro h
    cases h with
    | span => exact .span source span replacement
    | caret hopen hspan => exact .caret hopen hspan
  · intro h
    cases h with
    | span => exact .span source span replacement
    | caret hopen hspan => exact .caret hopen hspan

theorem Coherent.move (h : workspace.Coherent) {move : Move} (hown : move.call.isOwn = true) :
    (workspace.move move).2.Coherent :=
  (h.withPolicy move.policy).step hown

theorem Coherent.afterMoves (h : workspace.Coherent)
    (hown : ∀ move ∈ moves, move.call.isOwn = true) : (workspace.afterMoves moves).Coherent := by
  induction moves generalizing workspace with
  | nil => exact h
  | cons move rest ih =>
      rw [List.forall_mem_cons] at hown
      exact ih (h.move hown.1) hown.2

/-- The texts stay within the limit of offsets all through a run of moves. -/
def FitsThroughMoves (workspace : Workspace) : List Move → Prop
  | [] => workspace.Fits
  | move :: rest => workspace.Fits ∧ (workspace.move move).2.FitsThroughMoves rest

instance decidableFitsThroughMoves (workspace : Workspace) :
    (moves : List Move) → Decidable (workspace.FitsThroughMoves moves)
  | [] => inferInstanceAs (Decidable workspace.Fits)
  | move :: rest =>
      have := decidableFitsThroughMoves (workspace.move move).2 rest
      inferInstanceAs (Decidable (_ ∧ _))

theorem FitsThroughMoves.fits (h : workspace.FitsThroughMoves moves) : workspace.Fits := by
  cases moves with
  | nil => exact h
  | cons move rest => exact h.1

theorem fitsThroughMoves_append {front back : List Move} :
    workspace.FitsThroughMoves (front ++ back) ↔
      workspace.FitsThroughMoves front ∧ (workspace.afterMoves front).FitsThroughMoves back := by
  induction front generalizing workspace with
  | nil => exact ⟨fun h => ⟨h.fits, h⟩, fun h => h.2⟩
  | cons move rest ih =>
      rw [List.cons_append, FitsThroughMoves, FitsThroughMoves, ih, and_assoc, afterMoves_cons]

/-- A property that does not read the policy. -/
def Unread (property : Workspace → Prop) : Prop :=
  ∀ {workspace} policy, property workspace → property (workspace.withPolicy policy)

/-- A property that every change keeps, and that does not read the policy, holds after every run of
moves. -/
theorem Kept.afterMoves {property : Workspace → Prop} (hkept : Kept property)
    (hunread : Unread property) (hcoherent : workspace.Coherent)
    (hown : ∀ move ∈ moves, move.call.isOwn = true) (hfits : workspace.FitsThroughMoves moves)
    (hholds : property workspace) : property (workspace.afterMoves moves) := by
  induction moves generalizing workspace with
  | nil => exact hholds
  | cons move rest ih =>
      rw [List.forall_mem_cons] at hown
      have hguided := hcoherent.withPolicy move.policy
      obtain ⟨event, -, hadvances⟩ := hguided.step_advances hown.1
      exact ih (hcoherent.move hown.1) hown.2 hfits.2
        (hkept.advances hguided hfits.1 hfits.2.fits hadvances (hunread move.policy hholds))

/-- A policy that never changes its answers. -/
theorem Coherent.runMoves_under (h : workspace.Coherent) {calls : List Call}
    (hown : ∀ call ∈ calls, call.isOwn = true) :
    workspace.runMoves (calls.map (Move.mk workspace.policy)) = workspace.run calls := by
  induction calls generalizing workspace with
  | nil => rfl
  | cons call rest ih =>
      rw [List.forall_mem_cons] at hown
      obtain ⟨event, -, hadvances⟩ := h.step_advances hown.1
      have hrest := ih (h.step hown.1) hown.2
      rw [hadvances.policy_eq] at hrest
      have hmoved : workspace.move ⟨workspace.policy, call⟩ = workspace.step call := rfl
      simp only [List.map_cons, runMoves, run, hmoved, hrest]

end Retrace.Workspace
