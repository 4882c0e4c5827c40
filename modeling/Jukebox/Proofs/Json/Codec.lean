import Jukebox.Json.Decoder
import Mathlib.Data.List.Forall2

/-!
Reading back what was written. The law is stated for a decoder and a writer of one type, and is
carried from the parts of a value to lists, optional values, objects and records of them.
-/

namespace Jukebox.Json

variable {α : Type} {decoder : Decoder α} {write : α → Json} {levels : Nat}

/-- The value is read back from what is written for it, wherever that many levels may be opened. -/
def Reads (decoder : Decoder α) (write : α → Json) (levels : Nat) (a : α) : Prop :=
  ∀ depth, levels ≤ depth → decoder depth (.ofJson (write a)) = some a

theorem Reads.run {a : α} (h : Reads decoder write levels a) (hlevels : levels ≤ maxDepth) :
    decoder.run (.ofJson (write a)) = some a := h maxDepth hlevels

theorem reads_natural (n : Nat) : Reads Decoder.natural natural 0 n := fun _ _ => rfl

/-! ### Lists and optional values -/

theorem ofItems_eq_map (items : List Json) : Source.ofItems items = items.map .ofJson := by
  induction items with
  | nil => rfl
  | cons item rest ih => rw [Source.ofItems, ih, List.map_cons]

theorem ofMembers_eq_map (members : List (String × Json)) : Source.ofMembers members =
    members.map fun member => (some member.1, .ofJson member.2) := by
  induction members with
  | nil => rfl
  | cons member rest ih => rw [Source.ofMembers, ih, List.map_cons]

theorem mapM_map_eq_some {β : Type} {write : α → β} {read : β → Option α} {items : List α}
    (h : ∀ a ∈ items, read (write a) = some a) : (items.map write).mapM read = some items := by
  induction items with
  | nil => rfl
  | cons a rest ih =>
    have hrest := ih fun b hb => h b (List.mem_cons_of_mem a hb)
    simp [h a List.mem_cons_self, hrest]

theorem Reads.list {items : List α} (h : ∀ a ∈ items, Reads decoder write levels a) :
    Reads (Decoder.list decoder) (list write) (levels + 1) items := by
  rintro (_ | depth) hdepth
  · omega
  · rw [Json.list, Source.ofJson, ofItems_eq_map, List.map_map]
    exact mapM_map_eq_some fun a ha => h a ha depth (by omega)

theorem Reads.optional {value : Option α} (hwrite : ∀ a, write a ≠ .null)
    (h : ∀ a ∈ value, Reads decoder write levels a) :
    Reads (Decoder.optional decoder) (optional write) levels value := by
  intro depth hdepth
  cases value with
  | none => rfl
  | some a =>
    have hread := h a rfl depth hdepth
    have hnonnull : Source.ofJson (write a) ≠ .null := by
      have hne := hwrite a
      cases hjson : write a <;> simp_all [Source.ofJson]
    rw [Json.optional, Decoder.optional, hread, Option.map_some]
    exact hnonnull

theorem Reads.members {entries : List (String × α)}
    (h : ∀ entry ∈ entries, Reads decoder write levels entry.2) :
    Reads (Decoder.members decoder)
      (fun entries => object (entries.map fun entry => (entry.1, write entry.2))) (levels + 1)
      entries := by
  rintro (_ | depth) hdepth
  · omega
  · rw [Source.ofJson, ofMembers_eq_map, List.map_map]
    refine mapM_map_eq_some fun entry hentry => ?_
    have hread := h entry hentry depth (by omega)
    simp [hread]

/-! ### Records -/

section

variable {fields after : List Decoder.Field} {field : Decoder.Field} {source : Source}
  {members done : List (String × Json)} {name : String}

/-- The members are the fields of a record, each under its only name. -/
def Fit (fields : List Decoder.Field) (members : List (String × Json)) : Prop :=
  List.Forall₂ (fun field member => field.names = [member.1]) fields members

/-- The slots of fields that are filled with the values of members. -/
def slots (members : List (String × Json)) : List (Option Source) :=
  members.map fun member => some (.ofJson member.2)

theorem fill?_of_fit (hfit : Fit fields done) (hname : name ∉ done.map Prod.fst)
    (hfield : field.names = [name]) (rest : List (Option Source)) :
    Decoder.fill? name source (fields ++ field :: after) (slots done ++ none :: rest) =
      some (slots done ++ some source :: rest) := by
  induction hfit with
  | nil => simp [slots, Decoder.fill?, hfield]
  | cons hfirst _ ih =>
    rw [List.map_cons, List.mem_cons, not_or] at hname
    have hrest := ih hname.2
    simp only [slots, List.map_cons, List.cons_append] at hrest ⊢
    rw [Decoder.fill?, if_neg (by simp [hfirst, hname.1]), hrest, Option.map_some]

theorem foldlM_fill? (hdone : Fit fields done) (hfit : Fit after members)
    (hnodup : ((done ++ members).map Prod.fst).Nodup) :
    (Source.ofMembers members).foldlM (fun slots member =>
        member.1.bind fun name => Decoder.fill? name member.2 (fields ++ after) slots)
      (slots done ++ List.replicate after.length none) = some (slots (done ++ members)) := by
  -- the slots of `fields` are filled, with `done`; those of `after` are still empty
  induction hfit generalizing fields done with
  | nil => simp [Source.ofMembers]
  | @cons field member after members hfirst hrest ih =>
    obtain ⟨name, value⟩ := member
    have hname : name ∉ done.map Prod.fst := by
      intro hmem
      rw [List.map_append, List.nodup_append] at hnodup
      exact hnodup.2.2 name hmem name (by simp) rfl
    have hstep := @fill?_of_fit fields after field (.ofJson value) done name hdone hname hfirst
      (List.replicate after.length none)
    have hdone' : Fit (fields ++ [field]) (done ++ [(name, value)]) :=
      List.rel_append hdone (.cons hfirst .nil)
    have hnext := ih hdone' (by simpa using hnodup)
    simp only [slots, List.map_append, List.map_cons, List.map_nil, List.append_assoc,
      List.cons_append, List.nil_append] at hstep hnext ⊢
    rw [Source.ofMembers, List.foldlM_cons, List.length_cons, List.replicate_succ]
    simp only [Option.bind_eq_bind, Option.bind_some, hstep]
    exact hnext

theorem settleAbsent?_slots (hfit : Fit fields members) :
    Decoder.settleAbsent? fields (slots members) = some (slots members) := by
  induction hfit with
  | nil => rfl
  | cons _ _ ih =>
    simp only [slots, List.map_cons] at ih ⊢
    simp [Decoder.settleAbsent?, ih]

theorem record_ofJson (hfit : Fit fields members) (hnodup : (members.map Prod.fst).Nodup)
    (depth : Nat) : Decoder.record fields (depth + 1) (.ofJson (.object members)) =
      some (depth, slots members) := by
  have hfill := foldlM_fill? .nil hfit hnodup
  have hsettle := settleAbsent?_slots hfit
  rw [slots, List.map_nil, List.nil_append, List.nil_append] at hfill
  simp [Source.ofJson, Decoder.record, hfill, hsettle]

end

end Jukebox.Json
