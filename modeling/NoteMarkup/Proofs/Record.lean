import NoteMarkup.Value

/-! Look-ups in maps whose keys are texts: what setting and removing a key changes. Every key that
the library itself sets is a text, so the general comparison of keys is opened only here. -/

namespace NoteMarkup

theorem Value.sameKey_str_iff {v : Value} {s : String} : v.sameKey (.str s) = true ↔ v = .str s := by
  cases v <;> simp [Value.sameKey, Value.asInt?]
  split <;> simp_all

theorem Value.str_sameKey_iff {v : Value} {s : String} :
    (Value.str s).sameKey v = true ↔ v = .str s := by
  cases v <;> simp [Value.sameKey, Value.asInt?]
  · split <;> simp_all
  · exact eq_comm

namespace Entries

variable {α : Type} {es : List (Value × α)} {s t : String} {x : α}

@[simp] theorem get?_insert_self (es : List (Value × α)) (s : String) (x : α) :
    get? (insert es (.str s) x) (.str s) = some x := by
  induction es with
  | nil => simp [insert, get?, Value.str_sameKey_iff]
  | cons e es ih =>
      simp only [insert]
      split
      · next h => simp only [get?, h, if_true]
      · next h =>
          rw [get?, if_neg h]
          exact ih

theorem get?_insert_of_ne (h : s ≠ t) : get? (insert es (.str s) x) (.str t) = get? es (.str t) := by
  have other : ¬ (Value.str s).sameKey (.str t) = true := by
    simpa [Value.str_sameKey_iff] using h.symm
  induction es with
  | nil => simp [insert, get?, other]
  | cons e es ih =>
      simp only [insert]
      split
      · next he =>
          rw [Value.sameKey_str_iff] at he
          rw [get?, get?, he, if_neg other, if_neg other]
      · simp only [get?, ih]

@[simp] theorem get?_erase_self (es : List (Value × α)) (s : String) :
    get? (erase es (.str s)) (.str s) = none := by
  unfold erase
  induction es with
  | nil => rfl
  | cons e es ih =>
      by_cases he : e.1.sameKey (.str s) = true
      · simpa [List.filter_cons, he] using ih
      · simpa [List.filter_cons, he, get?] using ih

theorem get?_erase_of_ne (h : s ≠ t) : get? (erase es (.str s)) (.str t) = get? es (.str t) := by
  unfold erase
  induction es with
  | nil => rfl
  | cons e es ih =>
      by_cases he : e.1.sameKey (.str s) = true
      · have other : ¬ e.1.sameKey (.str t) = true := by
          rw [Value.sameKey_str_iff] at he
          simpa [he, Value.str_sameKey_iff] using h.symm
        simpa [List.filter_cons, he, get?, other] using ih
      · simp only [List.filter_cons, he, get?]
        simp only [Bool.not_false, if_true, get?, ih]

theorem mem_insert {e : Value × α} (h : e ∈ insert es (.str s) x) : e = (.str s, x) ∨ e ∈ es := by
  induction es with
  | nil => exact .inl (List.mem_singleton.mp h)
  | cons f es ih =>
      simp only [insert] at h
      split at h
      · next hf =>
          rw [Value.sameKey_str_iff] at hf
          rcases List.mem_cons.mp h with rfl | later
          · exact .inl (by rw [hf])
          · exact .inr (List.mem_cons_of_mem _ later)
      · rcases List.mem_cons.mp h with rfl | later
        · exact .inr List.mem_cons_self
        · exact (ih later).imp id (List.mem_cons_of_mem _)

theorem mem_of_mem_erase {e : Value × α} (h : e ∈ erase es (.str s)) : e ∈ es ∧ e.1 ≠ .str s := by
  obtain ⟨member, kept⟩ := List.mem_filter.mp h
  refine ⟨member, ?_⟩
  intro same
  simp [Value.sameKey_str_iff.mpr same] at kept

theorem get?_of_fresh (h : ∀ e ∈ es, e.1 ≠ .str s) : get? es (.str s) = none := by
  induction es with
  | nil => rfl
  | cons e es ih =>
      obtain ⟨first, later⟩ := List.forall_mem_cons.mp h
      rw [get?, if_neg (mt Value.sameKey_str_iff.mp first), ih later]

theorem fresh_of_get?_none (h : get? es (.str s) = none) : ∀ e ∈ es, e.1 ≠ .str s := by
  induction es with
  | nil => nofun
  | cons e es ih =>
      rw [get?] at h
      split at h
      · cases h
      · next other => exact List.forall_mem_cons.mpr ⟨mt Value.sameKey_str_iff.mpr other, ih h⟩

/-- A key that is not set comes last. -/
theorem insert_of_none (h : get? es (.str s) = none) : insert es (.str s) x = es ++ [(.str s, x)] := by
  induction es with
  | nil => rfl
  | cons e es ih =>
      rw [get?] at h
      split at h
      · cases h
      · next other => rw [insert, if_neg other, ih h, List.cons_append]

/-- Setting a key leaves another one unset, whatever the key is. -/
theorem get?_insert_none {key : Value} (other : key ≠ .str s) (h : get? es (.str s) = none) :
    get? (insert es key x) (.str s) = none := by
  refine get?_of_fresh fun e he => ?_
  have fresh := fresh_of_get?_none h
  clear h
  induction es with
  | nil =>
      rw [List.mem_singleton.mp he]
      exact other
  | cons f es ih =>
      obtain ⟨first, later⟩ := List.forall_mem_cons.mp fresh
      rw [insert] at he
      split at he
      · rcases List.mem_cons.mp he with rfl | he
        · exact first
        · exact later e he
      · rcases List.mem_cons.mp he with rfl | he
        · exact first
        · exact ih he later

/-- Removing a key that is not set changes nothing. -/
theorem erase_eq_self (h : get? es (.str s) = none) : erase es (.str s) = es := by
  unfold erase
  induction es with
  | nil => rfl
  | cons e es ih =>
      simp only [get?] at h
      split at h
      · cases h
      · next he => simpa [List.filter_cons, he] using ih h

/-- The later of two values that are set for a key stays. -/
theorem insert_insert_self (es : List (Value × α)) (s : String) (x y : α) :
    insert (insert es (.str s) x) (.str s) y = insert es (.str s) y := by
  have same : (Value.str s).sameKey (.str s) = true := Value.str_sameKey_iff.mpr rfl
  induction es with
  | nil => simp only [insert, same, if_true]
  | cons e es ih =>
      by_cases he : e.1.sameKey (.str s) = true
      · simp only [insert, he, if_true]
      · simp only [insert, he, ih, Bool.false_eq_true, if_false]

theorem erase_insert_self (es : List (Value × α)) (s : String) (x : α) :
    erase (insert es (.str s) x) (.str s) = erase es (.str s) := by
  have same : (Value.str s).sameKey (.str s) = true := Value.str_sameKey_iff.mpr rfl
  unfold erase
  induction es with
  | nil => simp [insert, same]
  | cons e es ih =>
      by_cases he : e.1.sameKey (.str s) = true
      · simp [insert, he]
      · simp [insert, he, ih]

theorem erase_insert_of_ne (h : s ≠ t) (x : α) :
    erase (insert es (.str s) x) (.str t) = insert (erase es (.str t)) (.str s) x := by
  have other : (Value.str s).sameKey (.str t) = false := by
    rw [Bool.eq_false_iff]
    exact fun same => h (Value.str.inj (Value.sameKey_str_iff.mp same))
  induction es with
  | nil => simp [erase, insert, other]
  | cons e es ih =>
      by_cases he : e.1.sameKey (.str s) = true
      · have key := Value.sameKey_str_iff.mp he
        simp [erase, insert, key, other, Value.str_sameKey_iff]
      · by_cases ht : e.1.sameKey (.str t) = true
        · simpa [erase, insert, he, ht] using ih
        · simpa [erase, insert, he, ht] using ih

/-- No key is set twice. -/
def Distinct (es : List (Value × α)) : Prop := (es.map Prod.fst).Nodup

theorem Distinct.erase (h : Distinct es) (key : Value) : Distinct (Entries.erase es key) :=
  List.Nodup.sublist (List.filter_sublist.map Prod.fst) h

theorem mem_insert_iff (h : Distinct es) {e : Value × α} :
    e ∈ insert es (.str s) x ↔ e = (.str s, x) ∨ e ∈ es ∧ e.1 ≠ .str s := by
  induction es with
  | nil => simp [insert]
  | cons f es ih =>
      obtain ⟨fresh, rest⟩ := List.nodup_cons.mp h
      simp only [insert]
      split
      · next hf =>
          rw [Value.sameKey_str_iff] at hf
          have other : e ∈ es → e.1 ≠ .str s := by
            intro he same
            exact fresh (List.mem_map.mpr ⟨e, he, same.trans hf.symm⟩)
          rw [List.mem_cons, List.mem_cons, hf]
          grind
      · next hf =>
          rw [Value.sameKey_str_iff] at hf
          rw [List.mem_cons, List.mem_cons, ih rest]
          grind

theorem Distinct.insert (h : Distinct es) : Distinct (Entries.insert es (.str s) x) := by
  induction es with
  | nil => simp [Distinct, Entries.insert]
  | cons e es ih =>
      obtain ⟨fresh, rest⟩ := List.nodup_cons.mp h
      simp only [Entries.insert]
      split
      · exact List.nodup_cons.mpr ⟨fresh, rest⟩
      · next he =>
          rw [Value.sameKey_str_iff] at he
          refine List.nodup_cons.mpr ⟨?_, ih rest⟩
          intro again
          obtain ⟨f, hf, same⟩ := List.mem_map.mp again
          rcases (mem_insert_iff rest).mp hf with rfl | ⟨old, -⟩
          · exact he same.symm
          · exact fresh (List.mem_map.mpr ⟨f, old, same⟩)

/-- The key is set, and once. -/
def SetsOnce (es : List (Value × α)) (s : String) (x : α) : Prop :=
  ∃ front back, es = front ++ (.str s, x) :: back ∧ ∀ e ∈ front ++ back, e.1 ≠ .str s

theorem SetsOnce.insert_of_ne {key : Value} {y : α} (h : SetsOnce es s x) (other : key ≠ .str s) :
    SetsOnce (Entries.insert es key y) s x := by
  obtain ⟨front, back, rfl, fresh⟩ := h
  induction front with
  | nil =>
      have apart : ¬(Value.str s).sameKey key = true := mt Value.str_sameKey_iff.mp other
      refine ⟨[], Entries.insert back key y, by rw [List.nil_append, Entries.insert, if_neg apart]; rfl, ?_⟩
      exact fresh_of_get?_none (get?_insert_none other (get?_of_fresh fresh))
  | cons e front ih =>
      obtain ⟨first, later⟩ := List.forall_mem_cons.mp fresh
      by_cases same : e.1.sameKey key = true
      · refine ⟨(e.1, y) :: front, back, ?_, List.forall_mem_cons.mpr ⟨first, later⟩⟩
        rw [List.cons_append, Entries.insert, if_pos same, List.cons_append]
      · obtain ⟨front', back', split, fresh'⟩ := ih later
        refine ⟨e :: front', back', ?_, List.forall_mem_cons.mpr ⟨first, fresh'⟩⟩
        rw [List.cons_append, Entries.insert, if_neg same, split, List.cons_append]

/-- The key is set once or not at all. -/
def SetsAtMostOnce (es : List (Value × α)) (s : String) : Prop :=
  get? es (.str s) = none ∨ ∃ x, SetsOnce es s x

theorem SetsAtMostOnce.insert_self (h : SetsAtMostOnce es s) (x : α) :
    SetsOnce (Entries.insert es (.str s) x) s x := by
  rcases h with absent | ⟨y, front, back, rfl, fresh⟩
  · refine ⟨es, [], insert_of_none absent, ?_⟩
    rw [List.append_nil]
    exact fresh_of_get?_none absent
  · refine ⟨front, back, ?_, fresh⟩
    have before : ∀ e ∈ front, e.1 ≠ .str s := fun e he => fresh e (List.mem_append_left _ he)
    clear fresh
    induction front with
    | nil => rw [List.nil_append, Entries.insert, if_pos (Value.str_sameKey_iff.mpr rfl), List.nil_append]
    | cons e front ih =>
        obtain ⟨first, later⟩ := List.forall_mem_cons.mp before
        rw [List.cons_append, Entries.insert, if_neg (mt Value.sameKey_str_iff.mp first), ih later,
          List.cons_append]

theorem SetsAtMostOnce.insert_of_ne {key : Value} {y : α} (h : SetsAtMostOnce es s)
    (other : key ≠ .str s) : SetsAtMostOnce (Entries.insert es key y) s :=
  h.imp (get?_insert_none other) fun ⟨x, set⟩ => ⟨x, set.insert_of_ne other⟩

theorem Distinct.setsAtMostOnce (h : Distinct es) (s : String) : SetsAtMostOnce es s := by
  by_cases member : ∃ e ∈ es, e.1 = .str s
  · obtain ⟨e, he, key⟩ := member
    obtain ⟨front, back, rfl⟩ := List.append_of_mem he
    refine .inr ⟨e.2, front, back, by rw [← key], fun f hf same => ?_⟩
    have apart : ((front ++ e :: back).map Prod.fst).Nodup := h
    rw [List.map_append, List.map_cons] at apart
    obtain ⟨-, ofBack, cross⟩ := List.nodup_append.mp apart
    have again : f.1 = e.1 := same.trans key.symm
    rcases List.mem_append.mp hf with before | after
    · exact cross f.1 (List.mem_map_of_mem before) e.1 List.mem_cons_self again
    · exact (List.nodup_cons.mp ofBack).1 (again ▸ List.mem_map_of_mem after)
  · exact .inl (get?_of_fresh fun e he key => member ⟨e, he, key⟩)

end Entries

namespace Record

variable {r s : Record} {k l : String} {v : Value}

theorem get?_set_self (r : Record) (k : String) (v : Value) :
    (r.set (.str k) v).get? (.str k) = some v :=
  Entries.get?_insert_self r k v

theorem get?_set_of_ne (h : k ≠ l) : (r.set (.str k) v).get? (.str l) = r.get? (.str l) :=
  Entries.get?_insert_of_ne h

theorem get?_erase_self (r : Record) (k : String) : (r.erase (.str k)).get? (.str k) = none :=
  Entries.get?_erase_self r k

theorem get?_erase_of_ne (h : k ≠ l) : (r.erase (.str k)).get? (.str l) = r.get? (.str l) :=
  Entries.get?_erase_of_ne h

/-- Every key is a text. -/
def Named (r : Record) : Prop := ∀ e ∈ r, ∃ k, e.1 = .str k

theorem merge_cons (r : Record) (e : Value × Value) (s : Record) :
    r.merge (e :: s) = (r.set e.1 e.2).merge s := rfl

/-- A merge brings in nothing but entries of the two maps. -/
theorem mem_merge (named : s.Named) {e : Value × Value} (h : e ∈ r.merge s) : e ∈ s ∨ e ∈ r := by
  induction s generalizing r with
  | nil => exact .inr h
  | cons f s ih =>
      obtain ⟨k, hk⟩ := named f List.mem_cons_self
      rw [merge_cons, hk] at h
      rcases ih (fun e he => named e (List.mem_cons_of_mem _ he)) h with later | first
      · exact .inl (List.mem_cons_of_mem _ later)
      · rcases Entries.mem_insert first with rfl | old
        · exact .inl (by rw [← hk]; exact List.mem_cons_self)
        · exact .inr old

theorem get?_merge (named : s.Named) (h : (r.merge s).get? (.str k) = some v) :
    (.str k, v) ∈ s ∨ r.get? (.str k) = some v := by
  induction s generalizing r with
  | nil => exact .inr h
  | cons e s ih =>
      obtain ⟨l, hl⟩ := named e List.mem_cons_self
      rw [merge_cons, hl] at h
      rcases ih (fun e he => named e (List.mem_cons_of_mem _ he)) h with later | first
      · exact .inl (List.mem_cons_of_mem _ later)
      · by_cases same : l = k
        · rw [same, get?_set_self] at first
          refine .inl (List.mem_cons.mpr (.inl ?_))
          rw [← same, ← hl, ← Option.some.inj first]
        · rw [get?_set_of_ne same] at first
          exact .inr first

theorem Named.merge (hr : r.Named) (hs : s.Named) : (r.merge s).Named := by
  intro e he
  exact (mem_merge hs he).elim (hs e) (hr e)

theorem distinct_merge (h : Entries.Distinct r) (named : s.Named) : Entries.Distinct (r.merge s) := by
  induction s generalizing r with
  | nil => exact h
  | cons e s ih =>
      obtain ⟨⟨l, hl⟩, named⟩ := List.forall_mem_cons.mp named
      rw [merge_cons, hl]
      exact ih h.insert named

/-- What a merge sets for a key does not depend on what was set for other keys. -/
theorem get?_merge_congr {q : Record} (named : s.Named) (h : q.get? (.str k) = r.get? (.str k)) :
    (q.merge s).get? (.str k) = (r.merge s).get? (.str k) := by
  induction s generalizing q r with
  | nil => exact h
  | cons e s ih =>
      obtain ⟨⟨l, hl⟩, named⟩ := List.forall_mem_cons.mp named
      rw [merge_cons, merge_cons, hl]
      refine ih named ?_
      by_cases same : l = k
      · rw [same, get?_set_self, get?_set_self]
      · rw [get?_set_of_ne same, get?_set_of_ne same, h]

theorem get?_merge_set_of_ne (named : s.Named) (h : k ≠ l) :
    (r.merge (s.set (.str k) v)).get? (.str l) = (r.merge s).get? (.str l) := by
  induction s generalizing r with
  | nil => exact get?_set_of_ne h
  | cons e s ih =>
      obtain ⟨⟨key, hkey⟩, named⟩ := List.forall_mem_cons.mp named
      rw [set, Entries.insert]
      split
      · next same =>
          rw [Value.sameKey_str_iff] at same
          rw [merge_cons, merge_cons, same]
          refine get?_merge_congr named ?_
          rw [get?_set_of_ne h, get?_set_of_ne h]
      · exact ih named

theorem get?_merge_none (hr : r.get? (.str k) = none) (hs : s.get? (.str k) = none) :
    (r.merge s).get? (.str k) = none := by
  induction s generalizing r with
  | nil => exact hr
  | cons e s ih =>
      obtain ⟨first, later⟩ := List.forall_mem_cons.mp (Entries.fresh_of_get?_none hs)
      rw [merge_cons]
      exact ih (Entries.get?_insert_none first hr) (Entries.get?_of_fresh later)

/-- What a merge sets last can be set after it. -/
theorem merge_set_of_none (h : s.get? (.str k) = none) :
    r.merge (s.set (.str k) v) = (r.merge s).set (.str k) v := by
  have last : s.set (.str k) v = s ++ [(.str k, v)] := Entries.insert_of_none h
  rw [last, merge, List.foldl_append]
  rfl

/-- A key that the second map does not set keeps its value. -/
theorem get?_merge_of_none (named : s.Named) (h : s.get? (.str k) = none) :
    (r.merge s).get? (.str k) = r.get? (.str k) := by
  induction s generalizing r with
  | nil => rfl
  | cons e s ih =>
      obtain ⟨⟨l, hl⟩, named⟩ := List.forall_mem_cons.mp named
      rw [get?, Entries.get?, hl] at h
      split at h
      · cases h
      · next other =>
          have ne : l ≠ k := fun same => other (Value.sameKey_str_iff.mpr (congrArg Value.str same))
          rw [merge_cons, ih named h, hl, get?_set_of_ne ne]

/-- A key that the second map sets once gets its value. -/
theorem get?_merge_of_some (named : s.Named) (distinct : Entries.Distinct s)
    (h : s.get? (.str k) = some v) : (r.merge s).get? (.str k) = some v := by
  induction s generalizing r with
  | nil => cases h
  | cons e s ih =>
      obtain ⟨⟨l, hl⟩, named⟩ := List.forall_mem_cons.mp named
      obtain ⟨fresh, distinct⟩ := List.nodup_cons.mp distinct
      rw [get?, Entries.get?] at h
      rw [merge_cons]
      split at h
      · next same =>
          cases h
          rw [Value.sameKey_str_iff] at same
          have absent : get? s (.str k) = none := Entries.get?_of_fresh fun f hf again =>
            fresh (List.mem_map.mpr ⟨f, hf, again.trans same.symm⟩)
          rw [get?_merge_of_none named absent, same, get?_set_self]
      · exact ih named distinct h

theorem merge_append (r s t : Record) : r.merge (s ++ t) = (r.merge s).merge t := List.foldl_append

/-- A key that the second map sets once is set once by the merge, whatever the other keys are. -/
theorem setsOnce_merge (hr : Entries.SetsAtMostOnce r k) (hs : Entries.SetsOnce s k v) :
    Entries.SetsOnce (r.merge s) k v := by
  obtain ⟨front, back, rfl, fresh⟩ := hs
  have before : Entries.SetsAtMostOnce (r.merge front) k := by
    have others : ∀ e ∈ front, e.1 ≠ .str k := fun e he => fresh e (List.mem_append_left _ he)
    clear fresh
    induction front generalizing r with
    | nil => exact hr
    | cons e front ih =>
        obtain ⟨first, later⟩ := List.forall_mem_cons.mp others
        exact ih (hr.insert_of_ne first) later
  have after : ∀ q : Record, Entries.SetsOnce q k v → Entries.SetsOnce (q.merge back) k v := by
    have others : ∀ e ∈ back, e.1 ≠ .str k := fun e he => fresh e (List.mem_append_right _ he)
    clear fresh
    induction back with
    | nil => exact fun q hq => hq
    | cons e back ih =>
        obtain ⟨first, later⟩ := List.forall_mem_cons.mp others
        exact fun q hq => ih later _ (hq.insert_of_ne first)
  rw [merge_append, merge_cons]
  exact after _ (before.insert_self v)

end Record

end NoteMarkup
