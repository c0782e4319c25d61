set_option autoImplicit false

/-!
# Maps and sets of ids

A finite map keyed by ids, listed in strictly increasing order of the ids. The
order is part of the type, so two maps with the same entries are equal, and the
order in which they are shown is the order in which they are stored.

`get?_insert` and `get?_erase` say what each operation does to a look-up;
`IdSet` is the map that carries nothing.
-/

namespace Narrative

/-- A finite map from ids, in strictly increasing order of its ids. -/
structure IdMap (β : Type) where
  entries : List (String × β)
  sorted : entries.Pairwise fun a b => a.1 < b.1
deriving DecidableEq

/-- A finite set of ids. -/
abbrev IdSet := IdMap Unit

namespace IdMap

variable {β : Type}

/-- The map without entries. -/
def empty : IdMap β := ⟨[], List.Pairwise.nil⟩

instance : EmptyCollection (IdMap β) := ⟨empty⟩

instance : Inhabited (IdMap β) := ⟨empty⟩

/-- Puts an entry into an increasing list, in place of an entry with the same id. -/
def insertEntry (k : String) (v : β) : List (String × β) → List (String × β)
  | [] => [(k, v)]
  | (k', v') :: rest =>
      if k < k' then (k, v) :: (k', v') :: rest
      else if k = k' then (k, v) :: rest
      else (k', v') :: insertEntry k v rest

/-- An entry of the new list is the new one or an old one. -/
theorem mem_insertEntry {k : String} {v : β} {e : String × β} {l : List (String × β)}
    (h : e ∈ insertEntry k v l) : e = (k, v) ∨ e ∈ l := by
  induction l with
  | nil => simpa [insertEntry] using h
  | cons head rest ih =>
      simp only [insertEntry] at h
      split at h
      · simpa using h
      · split at h
        · rcases List.mem_cons.1 h with h | h
          · exact Or.inl h
          · exact Or.inr (List.mem_cons_of_mem _ h)
        · rcases List.mem_cons.1 h with h | h
          · exact Or.inr (h ▸ List.mem_cons_self)
          · exact (ih h).imp id (List.mem_cons_of_mem _)

/-- Inserting keeps the list increasing. -/
theorem sorted_insertEntry (k : String) (v : β) {l : List (String × β)}
    (h : l.Pairwise fun a b => a.1 < b.1) :
    (insertEntry k v l).Pairwise fun a b => a.1 < b.1 := by
  induction l with
  | nil => simp [insertEntry]
  | cons head rest ih =>
      have hhead := (List.pairwise_cons.1 h).1
      have hrest := (List.pairwise_cons.1 h).2
      simp only [insertEntry]
      split
      · next hlt =>
          refine List.pairwise_cons.2 ⟨fun e he => ?_, h⟩
          rcases List.mem_cons.1 he with rfl | he
          · exact hlt
          · exact String.lt_trans hlt (hhead e he)
      · next hnlt =>
          split
          · next heq =>
              exact List.pairwise_cons.2 ⟨fun e he => heq ▸ hhead e he, hrest⟩
          · next hne =>
              refine List.pairwise_cons.2 ⟨fun e he => ?_, ih hrest⟩
              rcases mem_insertEntry he with rfl | he
              · have hle : head.1 ≤ k := String.not_lt.1 hnlt
                exact String.not_le.1 fun hkle => hne (String.le_antisymm hkle hle)
              · exact hhead e he

/-- The map with one entry set. -/
def insert (m : IdMap β) (k : String) (v : β) : IdMap β :=
  ⟨insertEntry k v m.entries, sorted_insertEntry k v m.sorted⟩

/-- The map without the entry of one id. -/
def erase (m : IdMap β) (k : String) : IdMap β :=
  ⟨m.entries.filter fun e => e.1 != k, m.sorted.filter _⟩

/-- The value of the first entry with an id. -/
def lookupEntry (k : String) : List (String × β) → Option β
  | [] => none
  | (k', v) :: rest => if k' = k then some v else lookupEntry k rest

/-- The value of an id, if the map has one. -/
def get? (m : IdMap β) (k : String) : Option β :=
  lookupEntry k m.entries

/-- Whether the map has an entry for an id. -/
def contains (m : IdMap β) (k : String) : Bool :=
  (m.get? k).isSome

/-- The ids of the map, increasing. -/
def keys (m : IdMap β) : List String :=
  m.entries.map Prod.fst

/-- Whether the map has no entry. -/
def isEmpty (m : IdMap β) : Bool :=
  m.entries.isEmpty

/-- Builds a map entry by entry; of two entries with one id the later stays. -/
def ofList (l : List (String × β)) : IdMap β :=
  l.foldl (fun m e => m.insert e.1 e.2) empty

@[simp] theorem get?_empty (k : String) : (empty : IdMap β).get? k = none := rfl

theorem lookupEntry_insertEntry (k j : String) (v : β) (l : List (String × β)) :
    lookupEntry j (insertEntry k v l) = if j = k then some v else lookupEntry j l := by
  induction l with
  | nil => simp [insertEntry, lookupEntry, eq_comm]
  | cons head rest ih =>
      obtain ⟨k', v'⟩ := head
      simp only [insertEntry]
      split
      · simp [lookupEntry, eq_comm]
      · split
        · next heq => subst heq; by_cases h : k = j <;> simp [lookupEntry, h, eq_comm]
        · next hne =>
            by_cases hj : k' = j
            · have hjk : j ≠ k := fun hjk => hne (hjk ▸ hj.symm)
              simp [lookupEntry, hj, hjk]
            · simp [lookupEntry, hj, ih]

/-- Setting an entry changes the look-up of its id and of no other. -/
theorem get?_insert (m : IdMap β) (k j : String) (v : β) :
    (m.insert k v).get? j = if j = k then some v else m.get? j :=
  lookupEntry_insertEntry k j v m.entries

theorem lookupEntry_filter_ne (k j : String) (l : List (String × β)) :
    lookupEntry j (l.filter fun e => e.1 != k) = if j = k then none else lookupEntry j l := by
  induction l with
  | nil => simp [lookupEntry]
  | cons head rest ih =>
      obtain ⟨k', v'⟩ := head
      by_cases hk : k' = k
      · by_cases hj : j = k
        · simpa [hk, hj] using ih
        · simp [hk, hj, ih, lookupEntry, Ne.symm hj]
      · by_cases hj : k' = j
        · simp [hj, lookupEntry, hj ▸ hk]
        · simp [hk, hj, lookupEntry, ih]

/-- Erasing an id changes its look-up and no other. -/
theorem get?_erase (m : IdMap β) (k j : String) :
    (m.erase k).get? j = if j = k then none else m.get? j :=
  lookupEntry_filter_ne k j m.entries

/-- In an increasing list an id has the value of its only entry. -/
theorem lookupEntry_eq_some_iff {k : String} {v : β} {l : List (String × β)}
    (h : l.Pairwise fun a b => a.1 < b.1) : lookupEntry k l = some v ↔ (k, v) ∈ l := by
  induction l with
  | nil => simp [lookupEntry]
  | cons head rest ih =>
      obtain ⟨k', v'⟩ := head
      obtain ⟨hhead, hrest⟩ := List.pairwise_cons.1 h
      simp only [lookupEntry, List.mem_cons, Prod.mk.injEq]
      split
      · next heq =>
          subst heq
          -- the entries that follow have larger ids
          have hnot : (k', v) ∉ rest := fun hmem => String.lt_irrefl k' (hhead _ hmem)
          simp [hnot, eq_comm]
      · next hne =>
          rw [ih hrest]
          simp [Ne.symm hne]

/-- The entries of a map are the ids with their values. -/
theorem mem_entries_iff {m : IdMap β} {k : String} {v : β} :
    (k, v) ∈ m.entries ↔ m.get? k = some v :=
  (lookupEntry_eq_some_iff m.sorted).symm

/-- The map with every value changed. -/
def mapValues {γ : Type} (f : β → γ) (m : IdMap β) : IdMap γ where
  entries := m.entries.map fun e => (e.1, f e.2)
  sorted := List.pairwise_map.2 m.sorted

theorem get?_mapValues {γ : Type} (f : β → γ) (m : IdMap β) (k : String) :
    (m.mapValues f).get? k = (m.get? k).map f := by
  obtain ⟨entries, sorted⟩ := m
  simp only [get?, mapValues]
  clear sorted
  induction entries with
  | nil => rfl
  | cons head rest ih =>
      simp only [List.map_cons, lookupEntry, ih]
      split <;> rfl

theorem contains_insert (m : IdMap β) (k j : String) (v : β) :
    (m.insert k v).contains j = (j == k || m.contains j) := by
  by_cases h : j = k <;> simp [contains, get?_insert, h]

theorem contains_erase (m : IdMap β) (k j : String) :
    (m.erase k).contains j = (j != k && m.contains j) := by
  by_cases h : j = k <;> simp [contains, get?_erase, h]

/-! ## Building a map from its entries -/

/-- Maps with the same look-ups are equal. -/
theorem ext_get? {m n : IdMap β} (h : ∀ k, m.get? k = n.get? k) : m = n := by
  have hmem : ∀ e, e ∈ m.entries ↔ e ∈ n.entries := fun (k, v) => by
    rw [mem_entries_iff, mem_entries_iff, h]
  have nodup (m : IdMap β) : m.entries.Nodup := by
    refine m.sorted.imp fun {a b} hlt heq => ?_
    rw [heq] at hlt
    exact String.lt_irrefl b.1 hlt
  have hperm : m.entries.Perm n.entries :=
    (List.perm_ext_iff_of_nodup (nodup m) (nodup n)).2 hmem
  have hentries : m.entries = n.entries := hperm.eq_of_pairwise
    (fun a b _ _ hab hba => absurd (String.lt_trans hab hba) (String.lt_irrefl a.1))
    m.sorted n.sorted
  exact (IdMap.mk.injEq ..).mpr hentries

/-- What entries with distinct ids add to a map. -/
theorem get?_foldl_insert {k : String} {v : β} {l : List (String × β)}
    (hids : (l.map Prod.fst).Nodup) (m : IdMap β) :
    (l.foldl (fun m e => m.insert e.1 e.2) m).get? k = some v ↔
      (k, v) ∈ l ∨ k ∉ l.map Prod.fst ∧ m.get? k = some v := by
  induction l generalizing m with
  | nil => simp
  | cons e rest ih =>
      obtain ⟨j, w⟩ := e
      obtain ⟨hfresh, hrest⟩ := List.nodup_cons.1 hids
      rw [List.foldl_cons, ih hrest, get?_insert]
      by_cases hk : k = j
      · subst hk
        have hnot : (k, v) ∉ rest := fun hmem => hfresh (List.mem_map.2 ⟨(k, v), hmem, rfl⟩)
        simp [hnot, hfresh, eq_comm]
      · simp [hk]

/-- A map is built again from its entries in any order. -/
theorem ofList_perm {l : List (String × β)} {m : IdMap β} (h : l.Perm m.entries) :
    ofList l = m := by
  have hids : (l.map Prod.fst).Nodup := by
    rw [(h.map Prod.fst).nodup_iff]
    refine List.pairwise_map.2 (m.sorted.imp fun {a b} hlt heq => ?_)
    rw [heq] at hlt
    exact String.lt_irrefl b.1 hlt
  refine ext_get? fun k => Option.ext fun v => ?_
  rw [ofList, get?_foldl_insert hids, h.mem_iff, mem_entries_iff]
  simp

end IdMap

namespace IdSet

/-- The set with one id added. -/
def add (s : IdSet) (k : String) : IdSet := s.insert k ()

/-- The set of the ids in a list. -/
def ofIds (ids : List String) : IdSet := IdMap.ofList (ids.map fun k => (k, ()))

@[simp] theorem contains_add (s : IdSet) (k j : String) :
    (s.add k).contains j = (j == k || s.contains j) :=
  IdMap.contains_insert s k j ()

/-- A set is built again from its ids in any order. -/
theorem ofIds_perm {ids : List String} {s : IdSet} (h : ids.Perm s.keys) : ofIds ids = s := by
  have hentries : s.keys.map (fun k => (k, ())) = s.entries := by
    rw [IdMap.keys, List.map_map]
    exact List.map_id _
  exact IdMap.ofList_perm (hentries ▸ h.map fun k => (k, ()))

end IdSet

end Narrative
