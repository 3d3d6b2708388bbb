import Mathlib.Data.List.AList
import Mathlib.Data.List.Induction

/-!
# Last-writer-wins logs

A log is a list of entries, each of which writes one key.  What a reader of the
log knows about a key is its last entry, `lastWrite`.  This module has the
algebra of `lastWrite` under concatenation and truncation, and the one fact a
*collapsed* log rests on: folding the entries into a map and reading the map at a
key is the same as scanning the log for the last entry of that key
(`lookup_collapse`).

The entries are arbitrary; the key they write is given by `key : ε → κ`.
-/

namespace LastWriter

universe u v w

variable {ε : Type u} {κ : Type v} [DecidableEq κ] (key : ε → κ)

/-- The last entry of the log that writes `k`. -/
def lastWrite (log : List ε) (k : κ) : Option ε :=
  (log.filter fun e => key e = k).getLast?

/-- The later log wins; where it is silent the earlier one is read. -/
theorem lastWrite_append (l₁ l₂ : List ε) (k : κ) :
    lastWrite key (l₁ ++ l₂) k = (lastWrite key l₂ k).or (lastWrite key l₁ k) := by
  simp [lastWrite, List.filter_append, List.getLast?_append]

theorem lastWrite_concat_self (l : List ε) (e : ε) :
    lastWrite key (l ++ [e]) (key e) = some e := by
  simp [lastWrite, List.filter_append]

theorem lastWrite_concat_of_ne (l : List ε) {e : ε} {k : κ} (h : key e ≠ k) :
    lastWrite key (l ++ [e]) k = lastWrite key l k := by
  simp [lastWrite, List.filter_append, h]

theorem mem_of_lastWrite {l : List ε} {k : κ} {e : ε} (h : lastWrite key l k = some e) :
    e ∈ l ∧ key e = k := by
  have member := List.mem_of_getLast? h
  simpa using member

/-- A key is absent from the log exactly when no entry writes it. -/
theorem lastWrite_eq_none {l : List ε} {k : κ} :
    lastWrite key l k = none ↔ ∀ e ∈ l, key e ≠ k := by
  simp [lastWrite]

/-- In an ordered log the last entry of a key comes after the others. -/
theorem eq_or_rel_lastWrite {R : ε → ε → Prop} {l : List ε} (sorted : l.Pairwise R) {k : κ}
    {last e : ε} (isLast : lastWrite key l k = some last) (member : e ∈ l) (isKey : key e = k) :
    e = last ∨ R e last := by
  obtain ⟨before, split⟩ := List.getLast?_eq_some_iff.mp isLast
  have written : e ∈ before ++ [last] := by
    rw [← split]
    exact List.mem_filter.mpr ⟨member, decide_eq_true isKey⟩
  have ordered := sorted.filter fun e => decide (key e = k)
  rw [split, List.pairwise_append] at ordered
  rcases List.mem_append.mp written with earlier | newest
  · exact .inr (ordered.2.2 e earlier last (List.mem_singleton_self _))
  · exact .inl (List.mem_singleton.mp newest)

/-! ## The collapsed log -/

/-- The log folded into a map from keys to entries, later entries overwriting
earlier ones. -/
def collapse (log : List ε) : AList fun _ : κ => ε :=
  log.foldl (fun m e => m.insert (key e) e) ∅

/-- Reading a map that a log was folded into is reading the log. -/
theorem lookup_foldl_insert {β : Type w} (val : ε → β) (l : List ε) (k : κ) :
    (l.foldl (fun m e => m.insert (key e) (val e)) (∅ : AList fun _ : κ => β)).lookup k =
      (lastWrite key l k).map val := by
  induction l using List.reverseRecOn with
  | nil => rfl
  | append_singleton l e ih =>
      rw [List.foldl_concat]
      by_cases same : key e = k
      · subst same
        rw [AList.lookup_insert, lastWrite_concat_self, Option.map_some]
      · rw [AList.lookup_insert_ne (Ne.symm same), ih, lastWrite_concat_of_ne key l same]

/-- **Reading the collapsed log is reading the log.** -/
theorem lookup_collapse (l : List ε) (k : κ) :
    (collapse key l).lookup k = lastWrite key l k :=
  (lookup_foldl_insert key id l k).trans (Option.map_id_apply ..)

/-- Where no two entries write different values to one key, reading the map is
finding an entry. -/
theorem lookup_foldl_insert_eq_some {β : Type w} {val : ε → β} {l : List ε}
    (agree : ∀ e ∈ l, ∀ e' ∈ l, key e = key e' → val e = val e') {k : κ} {b : β} :
    (l.foldl (fun m e => m.insert (key e) (val e)) (∅ : AList fun _ : κ => β)).lookup k = some b ↔
      ∃ e ∈ l, key e = k ∧ val e = b := by
  rw [lookup_foldl_insert, Option.map_eq_some_iff]
  constructor
  · rintro ⟨e, last, isVal⟩
    obtain ⟨member, isKey⟩ := mem_of_lastWrite key last
    exact ⟨e, member, isKey, isVal⟩
  · rintro ⟨e, member, isKey, rfl⟩
    cases last : lastWrite key l k with
    | none => exact absurd isKey ((lastWrite_eq_none key).mp last e member)
    | some e' =>
        obtain ⟨member', isKey'⟩ := mem_of_lastWrite key last
        exact ⟨e', rfl, agree e' member' e member (isKey'.trans isKey.symm)⟩

/-- Where no key is written twice, reading the collapsed log is finding the entry. -/
theorem lookup_collapse_eq_some {l : List ε} (once : ∀ e ∈ l, ∀ e' ∈ l, key e = key e' → e = e')
    {k : κ} {e : ε} : (collapse key l).lookup k = some e ↔ e ∈ l ∧ key e = k := by
  refine (lookup_foldl_insert_eq_some key once).trans ?_
  constructor
  · rintro ⟨e, member, isKey, rfl⟩
    exact ⟨member, isKey⟩
  · rintro ⟨member, isKey⟩
    exact ⟨e, member, isKey, rfl⟩

theorem mem_entries_collapse {l : List ε} {k : κ} {e : ε} :
    (⟨k, e⟩ : Σ _ : κ, ε) ∈ (collapse key l).entries ↔ lastWrite key l k = some e := by
  rw [← AList.mem_lookup_iff, Option.mem_def, lookup_collapse]

end LastWriter
