import Jukebox.Subscribers
import Mathlib.Data.List.Basic
import Mathlib.Data.List.Induction

/-!
What subscribers get. A run of operations on lists of subscribers is looked at operation by operation,
each with what was done before it and after it. From that alone it is told what a channel has received,
and which attachments of a list are left.
-/

namespace Jukebox.Exchange

/-! ### Operations -/

/-- What is done with lists of subscribers and with channels. -/
inductive Operation (ε : Type) where
  | subscribe (list channel : Nat)
  | attach (list channel : Nat)
  | drop (channel : Nat)
  | announce (list : Nat) (event : ε)

variable {ε : Type} {exchange : Exchange ε} {list channel : Nat} {event : ε}
variable {operation : Operation ε} {operations earlier later : List (Operation ε)}

def perform (exchange : Exchange ε) : Operation ε → Exchange ε
  | .subscribe list channel => exchange.subscribe list channel
  | .attach list channel => exchange.attach list channel
  | .drop channel => exchange.drop channel
  | .announce list event => exchange.announce list event

/-- What a run of operations leads to, from lists without subscribers. -/
def run (operations : List (Operation ε)) : Exchange ε := operations.foldl perform {}

theorem run_concat (operations : List (Operation ε)) (operation : Operation ε) :
    run (operations ++ [operation]) = (run operations).perform operation := by
  rw [run, List.foldl_append]
  rfl

namespace Operation

/-- The channel that an operation attaches to a list. -/
def attached? (list : Nat) : Operation ε → Option Nat
  | subscribe other channel | attach other channel => if other = list then some channel else none
  | drop _ | announce _ _ => none

/-- Whether an operation drops the receiver of a channel. -/
def drops (channel : Nat) : Operation ε → Bool
  | drop other => other = channel
  | _ => false

/-- Whether an operation announces something on a list. -/
def announcesOn (list : Nat) : Operation ε → Bool
  | announce other _ => other = list
  | _ => false

/-- What an operation adds to a channel after the earlier ones: a copy of what it announces for each
time that the channel had been attached to the list, unless its receiver had been dropped. -/
def copies (channel : Nat) (earlier : List (Operation ε)) : Operation ε → List ε
  | announce list event =>
    if earlier.any (drops channel) then []
    else List.replicate (earlier.countP (attached? list · = some channel)) event
  | _ => []

end Operation

open Operation (attached? drops announcesOn copies)

/-! ### What an operation changes -/

theorem isDropped_perform : (exchange.perform operation).isDropped channel =
    (exchange.isDropped channel || operation.drops channel) := by
  cases operation with
  | drop other => simp [perform, drop, drops, Bool.or_comm, eq_comm]
  | _ => exact (Bool.or_false _).symm

theorem attached_perform : (exchange.perform operation).attached list =
    ((exchange.attached list).filter fun c => !(operation.announcesOn list && exchange.isDropped c)) ++
      (operation.attached? list).toList := by
  have hall : (exchange.attached list).filter (fun _ => true) = exchange.attached list :=
    List.filter_eq_self.2 fun _ _ => rfl
  cases operation with
  | subscribe other channel | attach other channel =>
    by_cases hlist : other = list
    · simp [perform, subscribe, attach, attached?, announcesOn, hlist, hall]
    · simp [perform, subscribe, attach, attached?, announcesOn, hlist, Ne.symm hlist, hall]
  | drop channel => simp [perform, drop, attached?, announcesOn, hall]
  | announce other event =>
    by_cases hlist : other = list
    · simp [perform, announce, attached?, announcesOn, hlist]
    · simp [perform, announce, attached?, announcesOn, hlist, Ne.symm hlist, hall]

theorem received_perform : (exchange.perform operation).received channel =
    exchange.received channel ++ match operation with
      | .announce list event =>
        if exchange.isDropped channel then []
        else List.replicate ((exchange.attached list).count channel) event
      | _ => [] := by
  cases operation with
  | announce other event =>
    simp only [perform, announce]
    split
    · rename_i hdropped
      have hnone : channel ∉ (exchange.attached other).filter fun c => !exchange.isDropped c := by
        simp [hdropped]
      rw [List.count_eq_zero.2 hnone, List.replicate_zero]
    · rename_i hread
      rw [List.count_filter (by simpa using hread)]
  | _ => exact (List.append_nil _).symm

/-! ### Moments of a run -/

/-- The operations of a run, each with what was done before it and after it. -/
def moments (earlier : List (Operation ε)) :
    List (Operation ε) → List (List (Operation ε) × Operation ε × List (Operation ε))
  | [] => []
  | operation :: later => (earlier, operation, later) :: moments (earlier ++ [operation]) later

theorem moments_concat (earlier operations : List (Operation ε)) (operation : Operation ε) :
    moments earlier (operations ++ [operation]) =
      ((moments earlier operations).map fun (before, here, after) =>
        (before, here, after ++ [operation])) ++ [(earlier ++ operations, operation, [])] := by
  induction operations generalizing earlier with
  | nil => simp [moments]
  | cons first rest ih => simp [moments, ih]

theorem append_of_mem_moments {before after : List (Operation ε)}
    (h : (before, operation, after) ∈ moments earlier operations) :
    before ++ operation :: after = earlier ++ operations := by
  induction operations generalizing earlier with
  | nil => cases h
  | cons first rest ih =>
    rcases List.mem_cons.1 h with heq | hmem
    · cases heq
      rfl
    · rw [ih hmem, List.append_assoc, List.singleton_append]

theorem map_moments (earlier operations : List (Operation ε)) :
    ((moments earlier operations).map fun moment => moment.2.1) = operations := by
  induction operations generalizing earlier with
  | nil => rfl
  | cons first rest ih => rw [moments, List.map_cons, ih]

/-- What a channel gets in a run: what each operation adds to it. -/
def deliveries (channel : Nat) (operations : List (Operation ε)) : List ε :=
  (moments [] operations).flatMap fun (earlier, operation, _) => operation.copies channel earlier

/-- Whether something is announced on a list, among the later operations, after the receiver of a
channel was dropped. -/
def isLost (list channel : Nat) (earlier later : List (Operation ε)) : Bool :=
  (moments earlier later).any fun (before, operation, _) =>
    operation.announcesOn list && before.any (drops channel)

/-- The channels that are attached to a list, once for each time that they are attached. -/
def attachments (list : Nat) (operations : List (Operation ε)) : List Nat :=
  operations.filterMap (attached? list)

/-- The attachments to a list that were lost: something was announced there later on, when the
receiver had been dropped. -/
def lostAttachments (list : Nat) (operations : List (Operation ε)) : List Nat :=
  (moments [] operations).filterMap fun (earlier, operation, later) =>
    (operation.attached? list).filter (isLost list · earlier later)

theorem deliveries_concat (channel : Nat) (operations : List (Operation ε))
    (operation : Operation ε) : deliveries channel (operations ++ [operation]) =
      deliveries channel operations ++ operation.copies channel operations := by
  simp [deliveries, moments_concat, List.flatMap_map]

theorem isLost_concat : isLost list channel earlier (later ++ [operation]) =
    (isLost list channel earlier later ||
      operation.announcesOn list && (earlier ++ later).any (drops channel)) := by
  simp [isLost, moments_concat, List.any_map, Function.comp_def]

/-! ### Runs -/

theorem isDropped_run (operations : List (Operation ε)) (channel : Nat) :
    (run operations).isDropped channel = operations.any (drops channel) := by
  induction operations using List.reverseRecOn with
  | nil => rfl
  | append_singleton operations operation ih =>
    rw [run_concat, isDropped_perform, ih, List.any_append, List.any_cons, List.any_nil, Bool.or_false]

theorem drops_of_attached? {other : Nat} (h : operation.attached? list = some other) :
    operation.drops channel = false := by
  cases operation <;> first | rfl | cases h

theorem attached_run (operations : List (Operation ε)) (list : Nat) :
    (run operations).attached list = (moments [] operations).filterMap
      fun (earlier, operation, later) =>
        (operation.attached? list).filter fun channel => !isLost list channel earlier later := by
  induction operations using List.reverseRecOn with
  | nil => rfl
  | append_singleton operations operation ih =>
    rw [run_concat, attached_perform, ih, moments_concat, List.filterMap_append,
      List.filterMap_map, List.filter_filterMap]
    congr 1
    · refine List.filterMap_congr fun moment hmoment => ?_
      obtain ⟨before, here, after⟩ := moment
      have hrun := append_of_mem_moments hmoment
      dsimp only [Function.comp_apply]
      cases hattached : here.attached? list with
      | none => rfl
      | some channel =>
        have hdropped : (run operations).isDropped channel = (before ++ after).any (drops channel) := by
          rw [isDropped_run, ← List.nil_append operations, ← hrun]
          simp [drops_of_attached? hattached]
        simp only [Option.filter, isLost_concat, ← hdropped]
        by_cases hlost : isLost list channel before after = true <;> simp [hlost]
    · cases hattached : operation.attached? list <;> simp [hattached, isLost, moments]

theorem count_attached_run (hread : operations.any (drops channel) = false) (list : Nat) :
    ((run operations).attached list).count channel =
      operations.countP fun operation => operation.attached? list = some channel := by
  induction operations using List.reverseRecOn with
  | nil => rfl
  | append_singleton operations operation ih =>
    rw [List.any_append, Bool.or_eq_false_iff] at hread
    have hlive : (run operations).isDropped channel = false := by rw [isDropped_run, hread.1]
    rw [run_concat, attached_perform, List.count_append, List.count_filter (by simp [hlive]),
      ih hread.1, List.countP_append]
    cases hattached : operation.attached? list <;> simp [hattached, List.count_singleton]

theorem received_run (operations : List (Operation ε)) (channel : Nat) :
    (run operations).received channel = deliveries channel operations := by
  induction operations using List.reverseRecOn with
  | nil => rfl
  | append_singleton operations operation ih =>
    rw [run_concat, received_perform, ih, deliveries_concat, isDropped_run]
    cases operation with
    | announce list event =>
      simp only [copies]
      split
      · rfl
      · rename_i hread
        rw [count_attached_run (by simpa using hread)]
    | _ => rfl

theorem length_attachments (operations : List (Operation ε)) (list : Nat) :
    (attachments list operations).length =
      (run operations).count list + (lostAttachments list operations).length := by
  have hmade : attachments list operations =
      (moments [] operations).filterMap fun moment => moment.2.1.attached? list := by
    conv_lhs => rw [← map_moments [] operations, attachments, List.filterMap_map]
    rfl
  rw [count, attached_run, lostAttachments, hmade]
  induction moments [] operations with
  | nil => rfl
  | cons moment rest ih =>
    obtain ⟨before, here, after⟩ := moment
    cases hattached : here.attached? list with
    | none => simpa [hattached] using ih
    | some channel =>
      by_cases hlost : isLost list channel before after = true
      · simp only [List.filterMap_cons, hattached, Option.filter_some, hlost, Bool.not_true,
          Bool.false_eq_true, if_true, if_false, List.length_cons, ih]
        rfl
      · simp only [List.filterMap_cons, hattached, Option.filter_some, hlost, Bool.not_false,
          Bool.false_eq_true, if_true, if_false, List.length_cons, ih]
        omega

theorem deliveries_of_drop {other : Nat} (hne : other ≠ channel)
    (before after : List (Operation ε)) :
    deliveries channel (before ++ .drop other :: after) = deliveries channel (before ++ after) := by
  induction after using List.reverseRecOn with
  | nil => simp [deliveries_concat, copies]
  | append_singleton after operation ih =>
    rw [← List.cons_append, ← List.append_assoc, ← List.append_assoc, deliveries_concat,
      deliveries_concat, ih]
    cases operation with
    | announce list event => simp [copies, drops, attached?, hne]
    | _ => rfl

/-- **Deliveries are exact.** After any run of operations a channel has received, in the order of the
announcements, each event that was announced on a list as often as the channel had been attached to the
list before, as long as its receiver had not been dropped. The attachments of a list that are counted are
all that were made but those that were lost, because something was announced on the list later on and the
receiver had been dropped by then. A drop changes nothing for other channels. -/
theorem deliveries_exact (operations : List (Operation ε)) :
    (∀ channel, (run operations).received channel = deliveries channel operations) ∧
    (∀ list, (run operations).count list + (lostAttachments list operations).length =
      (attachments list operations).length) ∧
    ∀ channel other before after, other ≠ channel → operations = before ++ .drop other :: after →
      (run operations).received channel = (run (before ++ after)).received channel := by
  refine ⟨received_run operations, fun list => (length_attachments operations list).symm, ?_⟩
  rintro channel other before after hne rfl
  rw [received_run, received_run, deliveries_of_drop hne]

/-- Channel 8 is attached to both lists, and to list 0 twice; channel 7 is dropped. -/
theorem deliveries_exact_merged :
    let before : List (Operation Char) :=
      [.subscribe 0 7, .attach 1 8, .attach 0 8, .attach 0 8, .announce 0 'a']
    let after : List (Operation Char) := [.announce 1 'b', .announce 0 'c']
    (run (before ++ .drop 7 :: after)).received 8 = ['a', 'a', 'b', 'c', 'c'] ∧
      (run (before ++ .drop 7 :: after)).received 7 = ['a'] ∧
      (run (before ++ .drop 7 :: after)).count 0 + 1 = 3 ∧
      (run (before ++ .drop 7 :: after)).received 8 = (run (before ++ after)).received 8 := by
  intro before after
  obtain ⟨hreceived, hcount, hdrop⟩ := deliveries_exact (before ++ .drop 7 :: after)
  refine ⟨?_, ?_, ?_, hdrop 8 7 before after (by decide) rfl⟩
  · rw [hreceived]
    decide
  · rw [hreceived]
    decide
  · exact hcount 0

end Jukebox.Exchange
