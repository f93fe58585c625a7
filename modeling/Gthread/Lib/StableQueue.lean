import Mathlib.Data.List.Induction
import Mathlib.Data.List.Sort

/-! Key-ordered lists whose ties keep their order of arrival, as views of an arrival log. -/

namespace StableQueue

variable {κ α : Type*} [LinearOrder κ]

/-- Insert an entry after every entry whose key is not larger. -/
def insert (entry : κ × α) (q : List (κ × α)) : List (κ × α) :=
  -- A strict comparison skips the ties, which is where arrival order is kept.
  q.orderedInsert (fun a b => a.1 < b.1) entry

/-- The key-ordered list built from entries in their order of arrival. -/
def arrange (arrivals : List (κ × α)) : List (κ × α) :=
  arrivals.foldl (fun q entry => insert entry q) []

/-- The first entry with the least key, together with all other entries in their order. -/
def earliest : List (κ × α) → Option ((κ × α) × List (κ × α))
  | [] => none
  | entry :: rest =>
    match earliest rest with
    | none => some (entry, [])
    | some (least, others) =>
      -- A later entry wins only by a strictly smaller key.
      if least.1 < entry.1 then some (least, entry :: others) else some (entry, rest)

/-- Inserting keeps every entry and adds the new one. -/
theorem insert_perm (entry : κ × α) (q : List (κ × α)) : (insert entry q).Perm (entry :: q) :=
  List.perm_orderedInsert _ _ _

/-- A new arrival is inserted into the list arranged so far. -/
@[simp] theorem arrange_concat (arrivals : List (κ × α)) (entry : κ × α) :
    arrange (arrivals ++ [entry]) = insert entry (arrange arrivals) := by
  simp [arrange, List.foldl_append]

/-- An older entry placed before its ties commutes with the insertion of a newer one. -/
private theorem insert_orderedInsert (older newer : κ × α) (q : List (κ × α)) :
    insert newer (q.orderedInsert (fun a b => a.1 ≤ b.1) older) =
      (insert newer q).orderedInsert (fun a b => a.1 ≤ b.1) older := by
  induction q with
  | nil =>
    by_cases before : newer.1 < older.1
    · simp [insert, before, not_le.mpr before]
    · simp [insert, before, not_lt.mp before]
  | cons entry rest ih =>
    simp only [insert, List.orderedInsert_cons] at ih ⊢
    by_cases front : older.1 ≤ entry.1
    · by_cases before : newer.1 < older.1
      · simp [front, before, not_le.mpr before, lt_of_lt_of_le before front]
      · by_cases between : newer.1 < entry.1
        · simp [front, before, between, not_lt.mp before]
        · simp [front, before, between]
    · by_cases between : newer.1 < entry.1
      · have below : newer.1 < older.1 := lt_trans between (not_le.mp front)
        simp [front, between, not_le.mpr below]
      · simp [front, between, ih]

/-- The oldest entry stands before its ties in the arranged list. -/
theorem arrange_cons (entry : κ × α) (arrivals : List (κ × α)) :
    arrange (entry :: arrivals) =
      (arrange arrivals).orderedInsert (fun a b => a.1 ≤ b.1) entry := by
  -- The induction peels the newest arrival, whose insertion commutes with the oldest.
  induction arrivals using List.reverseRecOn with
  | nil => simp [arrange, insert]
  | append_singleton arrivals newest ih =>
    rw [← List.cons_append, arrange_concat, arrange_concat, ih, insert_orderedInsert]

/-- A non-empty log has an earliest entry: no older entry ties with it and none is smaller. -/
theorem earliest_split {arrivals : List (κ × α)} (nonempty : arrivals ≠ []) :
    ∃ least before after, arrivals = before ++ least :: after ∧
      earliest arrivals = some (least, before ++ after) ∧
      (∀ entry ∈ before, least.1 < entry.1) ∧ ∀ entry ∈ after, least.1 ≤ entry.1 := by
  induction arrivals with
  | nil => exact absurd rfl nonempty
  | cons entry rest ih =>
    cases rest with
    | nil => exact ⟨entry, [], [], rfl, rfl, by simp, by simp⟩
    | cons next tail =>
      obtain ⟨least, before, after, split, found, older, newer⟩ := ih (by simp)
      by_cases smaller : least.1 < entry.1
      · refine ⟨least, entry :: before, after, by simp [split], ?_, ?_, newer⟩
        · rw [earliest, found]
          simp [smaller]
        · simpa [smaller] using older
      · refine ⟨entry, [], next :: tail, rfl, ?_, by simp, ?_⟩
        · rw [earliest, found]
          simp [smaller]
        · -- The head is at most the earliest later entry, hence at most all of them.
          intro later member
          rw [split] at member
          rcases List.mem_append.mp member with member | member
          · exact le_trans (not_lt.mp smaller) (older later member).le
          · rcases List.mem_cons.mp member with rfl | member
            · exact not_lt.mp smaller
            · exact le_trans (not_lt.mp smaller) (newer later member)

/-- The arranged list starts with the earliest entry and continues with the others arranged. -/
theorem arrange_earliest {arrivals others : List (κ × α)} {least : κ × α}
    (found : earliest arrivals = some (least, others)) :
    arrange arrivals = least :: arrange others := by
  induction arrivals generalizing least others with
  | nil => simp [earliest] at found
  | cons entry rest ih =>
    rw [arrange_cons]
    simp only [earliest] at found
    split at found
    · rename_i absent
      -- Only an empty remainder has no earliest entry.
      have empty : rest = [] := by
        by_contra nonempty
        obtain ⟨_, _, _, _, located, _⟩ := earliest_split nonempty
        simp [located] at absent
      simp only [Option.some.injEq, Prod.mk.injEq] at found
      obtain ⟨rfl, rfl⟩ := found
      simp [empty, arrange]
    · rename_i first remaining located
      split at found <;> simp only [Option.some.injEq, Prod.mk.injEq] at found
      · rename_i smaller
        obtain ⟨rfl, rfl⟩ := found
        rw [ih located, arrange_cons, List.orderedInsert_cons, if_neg (not_le.mpr smaller)]
      · rename_i larger
        obtain ⟨rfl, rfl⟩ := found
        rw [ih located, List.orderedInsert_cons, if_pos (not_lt.mp larger)]

end StableQueue
