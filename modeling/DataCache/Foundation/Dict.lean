import Mathlib.Data.List.Nodup
import Mathlib.Data.List.Perm.Basic
import Mathlib.Algebra.BigOperators.Group.List.Basic

/-!
# Insertion-ordered dictionaries

A dictionary is an association list whose keys are pairwise different.  An
update of a present key keeps its position and a new key goes to the end, so
iteration visits the entries in the order in which their keys first appeared.
The proof that the keys differ travels with the value.
-/

namespace DataCache.Foundation

variable {κ : Type*} {β : Type*}

/-! ## Association lists -/

namespace Assoc

variable [DecidableEq κ]

def lookup : List (κ × β) → κ → Option β
  | [], _ => none
  | (key, value) :: rest, wanted =>
      if key = wanted then some value else lookup rest wanted

def set : List (κ × β) → κ → β → List (κ × β)
  | [], wanted, value => [(wanted, value)]
  | (key, old) :: rest, wanted, value =>
      if key = wanted then (wanted, value) :: rest
      else (key, old) :: set rest wanted value

theorem lookup_eq_none_iff {entries : List (κ × β)} {wanted : κ} :
    lookup entries wanted = none ↔ wanted ∉ entries.map Prod.fst := by
  induction entries with
  | nil => simp [lookup]
  | cons entry rest ih =>
      by_cases h : entry.1 = wanted
      · simp [lookup, h]
      · simp [lookup, h, ih, Ne.symm h]

theorem lookup_eq_some_iff {entries : List (κ × β)}
    (hnodup : (entries.map Prod.fst).Nodup) {wanted : κ} {value : β} :
    lookup entries wanted = some value ↔ (wanted, value) ∈ entries := by
  induction entries with
  | nil => simp [lookup]
  | cons entry rest ih =>
      obtain ⟨key, old⟩ := entry
      simp only [List.map_cons, List.nodup_cons] at hnodup
      by_cases h : key = wanted
      · subst h
        have hfresh : (key, value) ∉ rest := fun hmem =>
          hnodup.1 (List.mem_map_of_mem (f := Prod.fst) hmem)
        simp [lookup, hfresh, eq_comm]
      · have hne : (wanted, value) ≠ (key, old) := by
          intro heq
          exact h (Prod.ext_iff.mp heq).1.symm
        simp [lookup, h, ih hnodup.2, hne]

theorem lookup_set (entries : List (κ × β)) (wanted other : κ) (value : β) :
    lookup (set entries wanted value) other =
      if wanted = other then some value else lookup entries other := by
  induction entries with
  | nil => simp [set, lookup]
  | cons entry rest ih =>
      obtain ⟨key, old⟩ := entry
      by_cases h : key = wanted
      · subst h
        by_cases ho : key = other <;> simp [set, lookup, ho]
      · simp only [set, if_neg h, lookup, ih]
        by_cases hk : key = other
        · have hw : wanted ≠ other := fun heq => h (hk.trans heq.symm)
          simp [hk, hw]
        · simp [hk]

theorem keys_set (entries : List (κ × β)) (wanted : κ) (value : β) :
    (set entries wanted value).map Prod.fst =
      if wanted ∈ entries.map Prod.fst then entries.map Prod.fst
      else entries.map Prod.fst ++ [wanted] := by
  induction entries with
  | nil => simp [set]
  | cons entry rest ih =>
      obtain ⟨key, old⟩ := entry
      by_cases h : key = wanted
      · simp [set, h]
      · simp only [set, if_neg h, List.map_cons, ih]
        by_cases hm : wanted ∈ rest.map Prod.fst <;> simp [hm, Ne.symm h]

theorem set_set (entries : List (κ × β)) (wanted : κ) (first second : β) :
    set (set entries wanted first) wanted second = set entries wanted second := by
  induction entries with
  | nil => simp [set]
  | cons entry rest ih =>
      obtain ⟨key, old⟩ := entry
      by_cases h : key = wanted <;> simp [set, h, ih]

theorem set_of_absent {entries : List (κ × β)} {wanted : κ} {value : β}
    (h : wanted ∉ entries.map Prod.fst) :
    set entries wanted value = entries ++ [(wanted, value)] := by
  induction entries with
  | nil => rfl
  | cons entry rest ih =>
      obtain ⟨key, old⟩ := entry
      simp only [List.map_cons, List.mem_cons, not_or] at h
      rw [set, if_neg (Ne.symm h.1), ih h.2, List.cons_append]

theorem set_of_lookup {entries : List (κ × β)} {wanted : κ} {value : β}
    (h : lookup entries wanted = some value) : set entries wanted value = entries := by
  induction entries with
  | nil => cases h
  | cons entry rest ih =>
      obtain ⟨key, old⟩ := entry
      by_cases hk : key = wanted
      · subst hk
        rw [lookup, if_pos rfl, Option.some.injEq] at h
        rw [set, if_pos rfl, h]
      · rw [lookup, if_neg hk] at h
        rw [set, if_neg hk, ih h]

theorem lookup_filter {p : κ → Bool} (entries : List (κ × β)) (wanted : κ) :
    lookup (entries.filter fun entry => p entry.1) wanted =
      if p wanted then lookup entries wanted else none := by
  induction entries with
  | nil => simp [lookup]
  | cons entry rest ih =>
      obtain ⟨key, old⟩ := entry
      by_cases h : key = wanted
      · subst h
        by_cases hp : p key = true <;> simp [lookup, hp, ih]
      · by_cases hp : p key = true <;> simp [lookup, hp, h, ih]

theorem length_filter_ne {entries : List (κ × β)}
    (hnodup : (entries.map Prod.fst).Nodup) {wanted : κ} {value : β}
    (h : lookup entries wanted = some value) :
    (entries.filter fun entry => decide (entry.1 ≠ wanted)).length + 1 =
      entries.length := by
  induction entries with
  | nil => cases h
  | cons entry rest ih =>
      obtain ⟨key, old⟩ := entry
      simp only [List.map_cons, List.nodup_cons] at hnodup
      by_cases hk : key = wanted
      · subst hk
        have hrest : rest.filter (fun entry => decide (entry.1 ≠ key)) = rest := by
          refine List.filter_eq_self.mpr fun entry hentry => ?_
          have hne : entry.1 ≠ key := fun heq =>
            hnodup.1 (heq ▸ List.mem_map_of_mem hentry)
          simpa using hne
        rw [List.filter_cons_of_neg (by simp), hrest, List.length_cons]
      · rw [lookup, if_neg hk] at h
        simp [hk, ← ih hnodup.2 h]

theorem lookup_perm {entries entries' : List (κ × β)} (h : entries.Perm entries')
    (hnodup : (entries.map Prod.fst).Nodup) (wanted : κ) :
    lookup entries wanted = lookup entries' wanted := by
  refine Option.ext fun value => ?_
  rw [lookup_eq_some_iff hnodup,
    lookup_eq_some_iff ((h.map Prod.fst).nodup_iff.mp hnodup), h.mem_iff]

theorem lookup_map (f : κ → β → β) (entries : List (κ × β)) (wanted : κ) :
    lookup (entries.map fun entry => (entry.1, f entry.1 entry.2)) wanted =
      (lookup entries wanted).map (f wanted) := by
  induction entries with
  | nil => rfl
  | cons entry rest ih =>
      obtain ⟨key, old⟩ := entry
      by_cases h : key = wanted
      · subst h
        simp [lookup]
      · simp [lookup, h, ih]

/-- What a loop over the entries yields for one key. -/
theorem filter_filterMap {γ : Type*} {f : κ → β → Option γ} {keyOf : γ → κ}
    (hkey : ∀ key value result, f key value = some result → keyOf result = key)
    {entries : List (κ × β)} (hnodup : (entries.map Prod.fst).Nodup) (wanted : κ) :
    (entries.filterMap fun entry => f entry.1 entry.2).filter
        (fun result => decide (keyOf result = wanted)) =
      ((lookup entries wanted).bind (f wanted)).toList := by
  induction entries with
  | nil => rfl
  | cons entry rest ih =>
      obtain ⟨key, value⟩ := entry
      simp only [List.map_cons, List.nodup_cons] at hnodup
      have hrest := ih hnodup.2
      by_cases h : key = wanted
      · subst h
        rw [lookup_eq_none_iff.mpr hnodup.1] at hrest
        rw [lookup, if_pos rfl, Option.bind_some, List.filterMap_cons]
        cases hresult : f key value with
        | none => exact hrest
        | some result =>
            rw [List.filter_cons_of_pos (by simp [hkey key value result hresult]), hrest]
            rfl
      · rw [lookup, if_neg h, ← hrest, List.filterMap_cons]
        cases hresult : f key value with
        | none => rfl
        | some result =>
            exact List.filter_cons_of_neg (by simp [hkey key value result hresult, h])

end Assoc

/-! ## Dictionaries -/

structure Dict (κ : Type*) (β : Type*) where
  entries : List (κ × β)
  nodupKeys : (entries.map Prod.fst).Nodup

namespace Dict

def empty : Dict κ β := ⟨[], List.nodup_nil⟩

def filterKeys (dict : Dict κ β) (p : κ → Bool) : Dict κ β :=
  ⟨dict.entries.filter fun entry => p entry.1,
    dict.nodupKeys.sublist (List.filter_sublist.map Prod.fst)⟩

/-- A loop that updates every value in place. -/
def mapValues (dict : Dict κ β) (f : κ → β → β) : Dict κ β :=
  ⟨dict.entries.map fun entry => (entry.1, f entry.1 entry.2), by
    rw [List.map_map]
    exact dict.nodupKeys⟩

def keys (dict : Dict κ β) : List κ := dict.entries.map Prod.fst

def values (dict : Dict κ β) : List β := dict.entries.map Prod.snd

def size (dict : Dict κ β) : Nat := dict.entries.length

@[simp] theorem entries_empty : (empty : Dict κ β).entries = [] := rfl

@[simp] theorem size_empty : (empty : Dict κ β).size = 0 := rfl

theorem keys_nodup (dict : Dict κ β) : dict.keys.Nodup := dict.nodupKeys

theorem nodup_entries (dict : Dict κ β) : dict.entries.Nodup :=
  List.Nodup.of_map Prod.fst dict.nodupKeys

theorem size_eq_length_keys (dict : Dict κ β) :
    dict.size = dict.keys.length := by
  simp [size, keys]

theorem size_filterKeys_le (dict : Dict κ β) (p : κ → Bool) :
    (dict.filterKeys p).size ≤ dict.size :=
  List.length_filter_le _ _

theorem size_filterKeys_add (dict : Dict κ β) (p : κ → Bool) :
    (dict.filterKeys p).size + (dict.filterKeys fun key => !p key).size =
      dict.size := by
  simp only [size, filterKeys]
  exact (List.length_eq_length_filter_add fun entry : κ × β => p entry.1).symm

/--
Two dictionaries whose entries correspond under injective renamings carry the
same list of renamed entries up to order, so their sizes and sums agree.
-/
theorem perm_of_correspond {κ' : Type*} {β' : Type*} {γ : Type*}
    (first : Dict κ β) (second : Dict κ' β')
    (f : κ × β → γ) (g : κ' × β' → γ)
    (hf : ∀ a ∈ first.entries, ∀ b ∈ first.entries, f a = f b → a = b)
    (hg : ∀ a ∈ second.entries, ∀ b ∈ second.entries, g a = g b → a = b)
    (h : ∀ c, c ∈ first.entries.map f ↔ c ∈ second.entries.map g) :
    (first.entries.map f).Perm (second.entries.map g) :=
  (List.perm_ext_iff_of_nodup
    ((List.nodup_map_iff_inj_on first.nodup_entries).mpr hf)
    ((List.nodup_map_iff_inj_on second.nodup_entries).mpr hg)).mpr h

variable [DecidableEq κ]

instance [DecidableEq β] : DecidableEq (Dict κ β) := fun first second =>
  decidable_of_iff (first.entries = second.entries) (by
    cases first; cases second; simp)

def get? (dict : Dict κ β) (wanted : κ) : Option β :=
  Assoc.lookup dict.entries wanted

def contains (dict : Dict κ β) (wanted : κ) : Bool :=
  (dict.get? wanted).isSome

def set (dict : Dict κ β) (wanted : κ) (value : β) : Dict κ β :=
  ⟨Assoc.set dict.entries wanted value, by
    rw [Assoc.keys_set]
    split
    · exact dict.nodupKeys
    · next h =>
        exact List.nodup_append.mpr ⟨dict.nodupKeys, List.nodup_singleton _, by
          intro key hkey other hother
          rw [List.mem_singleton.mp hother]
          exact fun heq => h (heq ▸ hkey)⟩⟩

def erase (dict : Dict κ β) (wanted : κ) : Dict κ β :=
  dict.filterKeys fun key => decide (key ≠ wanted)

@[simp] theorem get?_empty (wanted : κ) :
    (empty : Dict κ β).get? wanted = none := rfl

theorem get?_set (dict : Dict κ β) (wanted other : κ) (value : β) :
    (dict.set wanted value).get? other =
      if wanted = other then some value else dict.get? other :=
  Assoc.lookup_set _ _ _ _

@[simp] theorem get?_set_self (dict : Dict κ β) (wanted : κ) (value : β) :
    (dict.set wanted value).get? wanted = some value := by
  simp [get?_set]

theorem get?_set_ne (dict : Dict κ β) {wanted other : κ} (value : β)
    (h : wanted ≠ other) :
    (dict.set wanted value).get? other = dict.get? other := by
  simp [get?_set, h]

@[simp] theorem set_set (dict : Dict κ β) (wanted : κ) (first second : β) :
    (dict.set wanted first).set wanted second = dict.set wanted second := by
  simp only [set, Assoc.set_set]

/-- Setting a key to the value it has changes nothing. -/
theorem set_of_get? {dict : Dict κ β} {wanted : κ} {value : β}
    (h : dict.get? wanted = some value) : dict.set wanted value = dict := by
  cases dict with
  | mk entries nodupKeys => simp only [set, Assoc.set_of_lookup h]

theorem get?_filterKeys (dict : Dict κ β) (p : κ → Bool) (wanted : κ) :
    (dict.filterKeys p).get? wanted =
      if p wanted then dict.get? wanted else none :=
  Assoc.lookup_filter _ _

theorem get?_mapValues (dict : Dict κ β) (f : κ → β → β) (wanted : κ) :
    (dict.mapValues f).get? wanted = (dict.get? wanted).map (f wanted) :=
  Assoc.lookup_map _ _ _

theorem get?_erase (dict : Dict κ β) (wanted other : κ) :
    (dict.erase wanted).get? other =
      if wanted = other then none else dict.get? other := by
  rw [erase, get?_filterKeys]
  by_cases h : wanted = other
  · simp [h]
  · simp [h, Ne.symm h]

@[simp] theorem get?_erase_self (dict : Dict κ β) (wanted : κ) :
    (dict.erase wanted).get? wanted = none := by
  simp [get?_erase]

theorem get?_erase_ne (dict : Dict κ β) {wanted other : κ}
    (h : wanted ≠ other) : (dict.erase wanted).get? other = dict.get? other := by
  simp [get?_erase, h]

theorem mem_entries_iff (dict : Dict κ β) {key : κ} {value : β} :
    (key, value) ∈ dict.entries ↔ dict.get? key = some value :=
  (Assoc.lookup_eq_some_iff dict.nodupKeys).symm

theorem contains_iff (dict : Dict κ β) {key : κ} :
    dict.contains key = true ↔ ∃ value, dict.get? key = some value := by
  simp [contains, Option.isSome_iff_exists]

theorem mem_keys_iff (dict : Dict κ β) {key : κ} :
    key ∈ dict.keys ↔ ∃ value, dict.get? key = some value := by
  simp only [keys, List.mem_map]
  constructor
  · rintro ⟨⟨key', value⟩, hmem, rfl⟩
    exact ⟨value, dict.mem_entries_iff.mp hmem⟩
  · rintro ⟨value, hget⟩
    exact ⟨(key, value), dict.mem_entries_iff.mpr hget, rfl⟩

theorem get?_eq_none_iff (dict : Dict κ β) {key : κ} :
    dict.get? key = none ↔ key ∉ dict.keys :=
  Assoc.lookup_eq_none_iff

theorem entries_set_of_absent {dict : Dict κ β} {wanted : κ} {value : β}
    (h : dict.get? wanted = none) :
    (dict.set wanted value).entries = dict.entries ++ [(wanted, value)] :=
  Assoc.set_of_absent (dict.get?_eq_none_iff.mp h)

/-- Taking a new key out again leaves nothing behind. -/
theorem erase_set_of_absent {dict : Dict κ β} {wanted : κ} {value : β}
    (h : dict.get? wanted = none) : (dict.set wanted value).erase wanted = dict := by
  have hkept : dict.entries.filter (fun entry => decide (entry.1 ≠ wanted)) =
      dict.entries := by
    refine List.filter_eq_self.mpr fun entry hentry => ?_
    have hne : entry.1 ≠ wanted := fun heq =>
      dict.get?_eq_none_iff.mp h (heq ▸ List.mem_map_of_mem hentry)
    simpa using hne
  cases dict with
  | mk entries nodupKeys =>
      simp only [erase, filterKeys, entries_set_of_absent h, mk.injEq,
        List.filter_append, hkept]
      simp

theorem size_set (dict : Dict κ β) (wanted : κ) (value : β) :
    (dict.set wanted value).size =
      if dict.contains wanted then dict.size else dict.size + 1 := by
  have hkeys : (dict.set wanted value).keys =
      if wanted ∈ dict.keys then dict.keys else dict.keys ++ [wanted] :=
    Assoc.keys_set _ _ _
  have hmem : dict.contains wanted = true ↔ wanted ∈ dict.keys := by
    rw [contains_iff, mem_keys_iff]
  rw [size_eq_length_keys, size_eq_length_keys, hkeys]
  by_cases h : wanted ∈ dict.keys
  · simp [h, hmem.mpr h]
  · have hc : dict.contains wanted = false := by
      simpa [h] using hmem
    simp [h, hc]

theorem size_erase (dict : Dict κ β) {wanted : κ}
    (h : dict.contains wanted = true) : (dict.erase wanted).size + 1 = dict.size := by
  obtain ⟨value, hget⟩ := dict.contains_iff.mp h
  exact Assoc.length_filter_ne dict.nodupKeys hget

theorem size_erase_le (dict : Dict κ β) (wanted : κ) :
    (dict.erase wanted).size ≤ dict.size :=
  dict.size_filterKeys_le _

end Dict

end DataCache.Foundation
