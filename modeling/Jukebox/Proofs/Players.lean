import Jukebox.Players
import Jukebox.Proofs.Map
import Mathlib.Tactic.Common

/-!
Players whose owners know of them: every key that is registered is the one that its owner holds by
its own account. What a connection takes off is then all that it owns, and nothing else.
-/

namespace Jukebox.Players

/-- The registered keys are not empty, and each is the key that its owner holds. -/
def HeldBy (players : Players) (keyOf : Nat → Option String) : Prop :=
  ∀ key player, players[key]? = some player → key ≠ "" ∧ keyOf player.owner = some key

variable {players : Players} {keyOf : Nat → Option String} {owner : Nat} {key previous : String}
  {player : Player}

theorem isOwned_iff : players.isOwned owner key = true ↔
    ∃ player, players[key]? = some player ∧ player.owner = owner := by
  unfold isOwned
  split <;> simp_all

theorem getElem?_removeOwned : (players.removeOwned owner previous)[key]? = some player ↔
    players[key]? = some player ∧ ¬ (key = previous ∧ player.owner = owner) := by
  unfold removeOwned
  split
  · rename_i howned
    obtain ⟨holder, hholder, howner⟩ := isOwned_iff.1 howned
    rw [Map.getElem?_erase]
    by_cases heq : previous = key
    · subst heq
      suffices holder = player → player.owner = owner by simpa [hholder]
      rintro rfl
      exact howner
    · simp [heq, Ne.symm heq]
  · rename_i howned
    simp only [iff_self_and]
    rintro hplayer ⟨rfl, howner⟩
    exact howned (isOwned_iff.2 ⟨player, hplayer, howner⟩)

theorem HeldBy.getElem?_removeOwned (h : players.HeldBy keyOf) (hprevious : keyOf owner = some previous) :
    (players.removeOwned owner previous)[key]? = some player ↔
      players[key]? = some player ∧ player.owner ≠ owner := by
  rw [Players.getElem?_removeOwned]
  refine and_congr_right fun hplayer => not_congr ⟨And.right, fun howner => ⟨?_, howner⟩⟩
  have hkey := (h key player hplayer).2
  rw [howner, hprevious] at hkey
  exact (Option.some.inj hkey).symm

theorem HeldBy.getElem?_bind (h : players.HeldBy keyOf) (hprevious : keyOf owner = some previous)
    {next : Option (String × Nat)} : (players.bind owner previous next)[key]? = some player ↔
      (∃ inbox, next = some (key, inbox) ∧ player = ⟨owner, inbox⟩) ∨
      (∀ inbox, next ≠ some (key, inbox)) ∧ players[key]? = some player ∧ player.owner ≠ owner := by
  unfold Players.bind
  dsimp only
  cases next with
  | none => simp [h.getElem?_removeOwned hprevious]
  | some entry =>
    obtain ⟨other, inbox⟩ := entry
    dsimp only [add]
    rw [Map.getElem?_insert]
    by_cases heq : other = key
    · subst heq
      simp [eq_comm]
    · simp [heq, h.getElem?_removeOwned hprevious]

end Jukebox.Players
