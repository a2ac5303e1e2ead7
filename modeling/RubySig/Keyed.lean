/-!
# Keyed lists

Lists of pairs that hold one value per key, in the order in which the keys were first put.
Putting a value under a key that is already there replaces the value and keeps the place, so
for any sequence of puts the first occurrence of a key decides its place and the last its value.
-/

namespace RubySig.Keyed

variable {κ : Type} {α : Type} [BEq κ]

/-- Put a value under a key: in the place of the key if it is there, else at the end. -/
def put : List (κ × α) → κ → α → List (κ × α)
  | [], key, value => [(key, value)]
  | entry :: rest, key, value =>
    if entry.1 == key then (entry.1, value) :: rest else entry :: put rest key value

/-- Put pairs one after the other into a keyed list. -/
def putAll (entries : List (κ × α)) (pairs : List (κ × α)) : List (κ × α) :=
  pairs.foldl (fun entries pair => put entries pair.1 pair.2) entries

/-- The keyed list of a sequence of pairs. -/
def ofPairs (pairs : List (κ × α)) : List (κ × α) :=
  putAll [] pairs

/-- Leave out a key. -/
def erase (entries : List (κ × α)) (key : κ) : List (κ × α) :=
  entries.filter fun entry => !(entry.1 == key)

variable [LawfulBEq κ]

/-- Putting adds the key at the end unless it is already there. -/
theorem keys_put (entries : List (κ × α)) (key : κ) (value : α) :
    (put entries key value).map Prod.fst =
      if key ∈ entries.map Prod.fst then entries.map Prod.fst else entries.map Prod.fst ++ [key] := by
  induction entries with
  | nil => simp [put]
  | cons entry rest ih =>
    by_cases h : entry.1 = key
    · simp [put, h]
    · have h' : ¬ key = entry.1 := fun e => h e.symm
      by_cases hr : key ∈ rest.map Prod.fst <;> simp_all [put]

/-- A key has at most one place. -/
theorem nodup_put (entries : List (κ × α)) (key : κ) (value : α)
    (h : (entries.map Prod.fst).Nodup) : ((put entries key value).map Prod.fst).Nodup := by
  rw [keys_put]
  split
  · exact h
  · rename_i hk
    exact List.nodup_append.mpr ⟨h, by simp, by
      intro a ha b hb
      simp only [List.mem_singleton] at hb
      subst hb
      intro e
      exact hk (e ▸ ha)⟩

/-- The keys of a keyed list made from pairs are distinct. -/
theorem nodup_ofPairs (pairs : List (κ × α)) : ((ofPairs pairs).map Prod.fst).Nodup := by
  suffices h : ∀ entries : List (κ × α), (entries.map Prod.fst).Nodup →
      ((putAll entries pairs).map Prod.fst).Nodup from h [] (by simp)
  induction pairs with
  | nil => exact fun entries h => h
  | cons pair rest ih => exact fun entries h => ih _ (nodup_put entries pair.1 pair.2 h)

/-- Putting under a new key adds an entry at the end. -/
theorem put_eq_append {entries : List (κ × α)} {key : κ} (value : α)
    (h : key ∉ entries.map Prod.fst) : put entries key value = entries ++ [(key, value)] := by
  induction entries with
  | nil => rfl
  | cons entry rest ih =>
    simp only [List.map_cons, List.mem_cons, not_or] at h
    have hfirst : (entry.1 == key) = false := by simpa using fun e : entry.1 = key => h.1 e.symm
    simp [put, hfirst, ih h.2]

/-- Pairs with distinct keys are a keyed list as they are. -/
theorem ofPairs_eq_self {pairs : List (κ × α)} (h : (pairs.map Prod.fst).Nodup) : ofPairs pairs = pairs := by
  suffices hall : ∀ entries : List (κ × α), ((entries ++ pairs).map Prod.fst).Nodup →
      putAll entries pairs = entries ++ pairs from hall [] h
  -- `entries` are the pairs put so far, none of which has the key of a later one.
  clear h
  induction pairs with
  | nil => intro entries _; simp [putAll]
  | cons pair rest ih =>
    intro entries hnodup
    have hnew : pair.1 ∉ entries.map Prod.fst := by
      intro hmem
      simp only [List.map_append, List.map_cons, List.nodup_append] at hnodup
      exact hnodup.2.2 _ hmem _ (.head _) rfl
    rw [putAll, List.foldl_cons, put_eq_append _ hnew, ← putAll, ih _ (by simpa using hnodup)]
    simp

/-- Putting the value that belongs to a key adds nothing if the key is already there. -/
theorem put_map (value : κ → α) (keys : List κ) (key : κ) :
    put (keys.map fun key => (key, value key)) key (value key) =
      (if key ∈ keys then keys else keys ++ [key]).map fun key => (key, value key) := by
  induction keys with
  | nil => rfl
  | cons first rest ih =>
    by_cases h : first = key
    · subst h
      simp [put]
    · have h' : ¬ key = first := fun e => h e.symm
      by_cases hr : key ∈ rest <;> simp_all [put]

/-- Where the value is a function of the key, a keyed list has each key once, in the place where it
was first put. -/
theorem ofPairs_map (value : κ → α) (keys : List κ) :
    ofPairs (keys.map fun key => (key, value key)) = keys.eraseDups.map fun key => (key, value key) := by
  suffices h : ∀ earlier : List κ,
      putAll (earlier.eraseDups.map fun key => (key, value key)) (keys.map fun key => (key, value key)) =
        (earlier ++ keys).eraseDups.map fun key => (key, value key) from h []
  -- `earlier` are the keys put so far, so that their places are already known.
  induction keys with
  | nil => intro earlier; simp [putAll]
  | cons key rest ih =>
    intro earlier
    have hput : put (earlier.eraseDups.map fun key => (key, value key)) key (value key) =
        (earlier ++ [key]).eraseDups.map fun key => (key, value key) := by
      rw [put_map, List.eraseDups_append]
      by_cases h : key ∈ earlier <;> simp [h, List.removeAll, List.eraseDups_cons]
    have hrest := ih (earlier ++ [key])
    rw [List.append_assoc, List.singleton_append] at hrest
    rw [List.map_cons, putAll, List.foldl_cons, hput]
    exact hrest

/-- The value under a key after a put. -/
theorem lookup_put (entries : List (κ × α)) (key other : κ) (value : α) :
    (put entries key value).lookup other =
      if other == key then some value else entries.lookup other := by
  induction entries with
  | nil => cases h : other == key <;> simp [put, List.lookup_cons, h]
  | cons entry rest ih =>
    obtain ⟨first, held⟩ := entry
    simp only [put]
    split
    · rename_i h
      obtain rfl : first = key := by simpa using h
      cases ho : other == first <;> simp [List.lookup_cons, ho]
    · rename_i h
      cases ho : other == first
      · simp [List.lookup_cons, ho, ih]
      · obtain rfl : other = first := by simpa using ho
        simp [h]

/-- The value under a key after several puts is the last one that was put there. -/
theorem lookup_putAll (entries pairs : List (κ × α)) (key : κ) :
    (putAll entries pairs).lookup key =
      ((pairs.filter fun pair => pair.1 == key).getLast?.map Prod.snd).or (entries.lookup key) := by
  induction pairs generalizing entries with
  | nil => simp [putAll]
  | cons pair rest ih =>
    have hstep : putAll entries (pair :: rest) = putAll (put entries pair.1 pair.2) rest := rfl
    rw [hstep, ih, lookup_put]
    by_cases h : pair.1 = key
    · cases hlast : (rest.filter fun pair => pair.1 == key).getLast? <;> simp [h, hlast, List.getLast?_cons]
    · have hkey : (key == pair.1) = false := by simpa using fun e : key = pair.1 => h e.symm
      simp [h, hkey]

/-- The value under a key of a keyed list is the one of the last pair with the key. -/
theorem lookup_ofPairs (pairs : List (κ × α)) (key : κ) :
    (ofPairs pairs).lookup key = (pairs.filter fun pair => pair.1 == key).getLast?.map Prod.snd := by
  simp [ofPairs, lookup_putAll]

end RubySig.Keyed
