import Jukebox.Playlist.Basic
import Jukebox.Proofs.Result

/-!
Where the items of a playlist come from. What an edit leaves are items that were there before, the
item that it adds, or what a removal leaves of one.
-/

namespace Jukebox.Playlist

open Result (bind_eq_ok_iff)

variable {playlist : Playlist} {item other : Item} {index : Nat} {path : Path}

theorem Item.isEmpty_eq_false_iff : item.isEmpty = false ↔ item.tracks ≠ [] := by
  simp [Item.isEmpty]

theorem of_mem_append (h : other ∈ (playlist.append item).items) :
    other ∈ playlist.items ∨ other = item ∧ item.tracks ≠ [] := by
  unfold append at h
  split at h
  · exact .inl h
  · rename_i hitem
    rcases List.mem_append.1 h with h | h
    · exact .inl h
    · exact .inr ⟨List.mem_singleton.1 h, Item.isEmpty_eq_false_iff.1 (by simpa using hitem)⟩

theorem of_mem_playNow (h : other ∈ (playlist.playNow item).items) :
    other ∈ playlist.items ∨ other = item ∧ item.tracks ≠ [] := by
  unfold playNow at h
  split at h
  · exact .inl h
  · rename_i hitem
    rcases List.mem_append.1 h with h | h
    · exact .inl (List.mem_of_mem_take h)
    · rcases List.mem_cons.1 h with rfl | h
      · exact .inr ⟨rfl, Item.isEmpty_eq_false_iff.1 (by simpa using hitem)⟩
      · exact .inl (List.mem_of_mem_drop h)

/-- A removal leaves no current track, and items that were there before but for at most one, which
still holds tracks. -/
theorem of_remove {removed : Playlist} (h : playlist.remove index path = .ok removed) :
    removed.current = none ∧ ∀ other ∈ removed.items, other ∈ playlist.items ∨
      other.tracks ≠ [] ∧ ∃ item ∈ playlist.items, item.remove path = .ok other := by
  unfold remove at h
  split at h
  · cases h
  rename_i item hitem
  split at h
  · cases h
    exact ⟨rfl, fun other hother => .inl (List.mem_of_mem_eraseIdx hother)⟩
  obtain ⟨pruned, hpruned, h⟩ := bind_eq_ok_iff.1 h
  split at h
  · cases h
    exact ⟨rfl, fun other hother => .inl (List.mem_of_mem_eraseIdx hother)⟩
  · rename_i hne
    cases h
    refine ⟨rfl, fun other hother => ?_⟩
    rcases List.mem_or_eq_of_mem_set hother with hother | rfl
    · exact .inl hother
    · have htracks := Item.isEmpty_eq_false_iff.1 (by simpa using hne)
      exact .inr ⟨htracks, item, List.mem_of_getElem? hitem, hpruned⟩

theorem items_playItem {played : Playlist} (h : playlist.playItem index path = .ok played) :
    played.items = playlist.items := by
  unfold playItem at h
  split at h
  · cases h
  · split at h <;> cases h
    rfl

end Jukebox.Playlist
