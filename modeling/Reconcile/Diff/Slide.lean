import Reconcile.Diff.Script

namespace Reconcile.Diff

/-- A script with one of its blocks singled out. -/
structure Focus (α : Type) where
  /-- The blocks before the one in focus, the nearest first. -/
  before : Script α
  block : Block α
  after : Script α

namespace Focus

/-- A kept run in front of a script, joined with a kept run that stands there. -/
def keepInFront (run : List α) : Script α → Script α
  | ⟨.keep, kept⟩ :: script => ⟨.keep, run ++ kept⟩ :: script
  | script => ⟨.keep, run⟩ :: script

/-- A kept run behind a script whose nearest block is listed first. -/
def keepBehind (run : List α) : Script α → Script α
  | ⟨.keep, kept⟩ :: script => ⟨.keep, kept ++ run⟩ :: script
  | script => ⟨.keep, run⟩ :: script

/-- The size of a script for the purpose of sliding over it. -/
def weight : Script α → Nat
  | [] => 0
  | block :: script => block.run.length + 1 + weight script

/-- Slides a block up as far as it goes. -/
def slideUp [DecidableEq α] (before : Script α) (block : Block α) (after : Script α) : Focus α :=
  match before with
  | [] => ⟨[], block, after⟩
  | near :: before =>
    if near.action = block.action then
      slideUp before ⟨block.action, near.run ++ block.run⟩ after
    else if near.action ≠ .keep then slideUp before block (near :: after)
    else if near.run = [] then slideUp before block after
    else
      let shared := commonEnd block.run near.run
      if _ : shared = 0 then ⟨near :: before, block, after⟩
      else
        let rest := near.run.take (near.run.length - shared)
        let moved := near.run.drop (near.run.length - shared)
        slideUp (⟨.keep, rest⟩ :: before)
          ⟨block.action, moved ++ block.run.take (block.run.length - shared)⟩
          (keepInFront moved after)
termination_by weight before
decreasing_by
  all_goals simp only [weight, List.length_take]
  all_goals try omega
  have hle := commonEnd_le_right block.run near.run
  omega

/-- Slides a block down as far as it goes. -/
def slideDown [DecidableEq α] (before : Script α) (block : Block α) (after : Script α) :
    Focus α :=
  match after with
  | [] => ⟨before, block, []⟩
  | near :: after =>
    if near.action = block.action then
      slideDown before ⟨block.action, block.run ++ near.run⟩ after
    else if near.action ≠ .keep then slideDown (near :: before) block after
    else if near.run = [] then slideDown before block after
    else
      let shared := commonStart block.run near.run
      if _ : shared = 0 then ⟨before, block, near :: after⟩
      else
        let moved := near.run.take shared
        slideDown (keepBehind moved before) ⟨block.action, block.run.drop shared ++ moved⟩
          (⟨.keep, near.run.drop shared⟩ :: after)
termination_by weight after
decreasing_by
  all_goals simp only [weight, List.length_drop]
  all_goals try omega
  have hle := commonStart_le_right block.run near.run
  omega

/-- How many blocks of a kind a script has. -/
def count (action : Action) (script : Script α) : Nat :=
  script.countP (·.action = action)

/-- A kept run in front changes nothing about what is deleted or inserted. -/
theorem count_keepInFront {action : Action} (haction : action ≠ .keep) (run : List α)
    (script : Script α) : count action (keepInFront run script) = count action script := by
  unfold keepInFront
  split <;> simp [count, Ne.symm haction]

/-- Sliding up puts no block of the moving kind behind it. -/
theorem count_slideUp [DecidableEq α] (before : Script α) (block : Block α) (after : Script α)
    (haction : block.action ≠ .keep) :
    count block.action (slideUp before block after).after = count block.action after := by
  fun_induction slideUp before block after with
  | case1 => rfl
  | case2 block after near before hsame ih => exact ih haction
  | case3 block after near before hsame hkeep ih =>
    rw [ih haction]
    simp [count, hsame]
  | case4 block after near before hsame hkeep hrun ih => exact ih haction
  | case5 => rfl
  | case6 block after near before hsame hkeep hrun shared hshared rest moved ih =>
    rw [ih haction]
    exact count_keepInFront haction _ _

theorem action_slideUp [DecidableEq α] (before : Script α) (block : Block α)
    (after : Script α) : (slideUp before block after).block.action = block.action := by
  fun_induction slideUp before block after <;> simp_all

/-- Sliding down puts no block of the moving kind behind it. -/
theorem count_slideDown_le [DecidableEq α] (before : Script α) (block : Block α)
    (after : Script α) :
    count block.action (slideDown before block after).after ≤ count block.action after := by
  fun_induction slideDown before block after with
  | case1 => simp
  | case2 before block near after hsame ih =>
    refine Nat.le_trans ih ?_
    simp [count, List.countP_cons]
  | case3 before block near after hsame hkeep ih =>
    refine Nat.le_trans ih ?_
    simp [count, List.countP_cons]
  | case4 before block near after hsame hkeep hrun ih =>
    refine Nat.le_trans ih ?_
    simp [count, List.countP_cons]
  | case5 => simp
  | case6 before block near after hsame hkeep hrun shared hshared moved ih =>
    refine Nat.le_trans ih ?_
    have hkept : near.action = .keep := by simpa using hkeep
    simp [count, List.countP_cons, hkept]

end Focus

/-- Slides every block of a kind up and then down, from the first to the last. `before` is the
    part that is done, its last block first. -/
def slideAll [DecidableEq α] (action : Action) (before todo : Script α) : Script α :=
  match todo with
  | [] => before.reverse
  | block :: after =>
    if _ : block.action = action ∧ action ≠ .keep then
      let up := Focus.slideUp before block after
      let down := Focus.slideDown up.before up.block up.after
      slideAll action (down.block :: down.before) down.after
    else slideAll action (block :: before) after
termination_by (Focus.count action todo, todo.length)
decreasing_by
  · apply Prod.Lex.left
    rename_i haction
    obtain ⟨rfl, hkeep⟩ := haction
    have hdown := Focus.count_slideDown_le up.before up.block up.after
    rw [Focus.action_slideUp] at hdown
    rw [Focus.count_slideUp _ _ _ hkeep] at hdown
    refine Nat.lt_of_le_of_lt hdown ?_
    simp [Focus.count]
  · by_cases hblock : block.action = action
    · apply Prod.Lex.left
      simp [Focus.count, hblock]
    · have hcount : Focus.count action (block :: after) = Focus.count action after := by
        simp [Focus.count, hblock]
      rw [hcount]
      apply Prod.Lex.right
      simp

/-- Slides all deletions and then all insertions as far as they go. If a deletion ends like the run
    before it, the same change is described by deleting further up; so runs of one kind meet and are
    joined. Deletions and insertions may pass each other. -/
def slide [DecidableEq α] (script : Script α) : Script α :=
  slideAll .insert [] (slideAll .delete [] script)

end Reconcile.Diff
