import DataCache.Foundation.Ordered
import Mathlib.Data.List.DropRight

/-!
# Sorting one arrival at a time

Ordered insertion sorts stably.  Cutting an ordered sequence to its last
elements, or to the elements above a bound, commutes with insertion, so a queue
that is cut after every arrival equals one cut of the sorted history.
-/

namespace DataCache.Foundation

variable {α K : Type*} [LinearOrder K] (key : α → K)

/-- The stable sort: equal keys stay in the order of their arrival. -/
def sortByKey (arrivals : List α) : List α :=
  arrivals.mergeSort fun x y => decide (key x ≤ key y)

def withKey (queue : List α) (k : K) : List α :=
  queue.filter fun x => decide (key x = k)

theorem mem_withKey_self {queue : List α} {x : α} :
    x ∈ withKey key queue (key x) ↔ x ∈ queue := by
  simp [withKey]

theorem withKey_append (queue queue' : List α) (k : K) :
    withKey key (queue ++ queue') k = withKey key queue k ++ withKey key queue' k :=
  List.filter_append _ _

section Sorting

variable {key}

theorem mem_iff_of_withKey {queue queue' : List α}
    (hkeys : ∀ k, withKey key queue k = withKey key queue' k) (x : α) :
    x ∈ queue ↔ x ∈ queue' := by
  rw [← mem_withKey_self key, hkeys, mem_withKey_self]

/-- The order of the keys and the order within each key fix a sequence. -/
theorem eq_of_keyOrdered {queue queue' : List α} (h : KeyOrdered key queue)
    (h' : KeyOrdered key queue')
    (hkeys : ∀ k, withKey key queue k = withKey key queue' k) :
    queue = queue' := by
  have hmem := mem_iff_of_withKey hkeys
  induction queue generalizing queue' with
  | nil => exact (List.eq_nil_iff_forall_not_mem.mpr fun x hx =>
      List.not_mem_nil ((hmem x).mpr hx)).symm
  | cons first rest ih =>
      cases queue' with
      | nil => exact absurd ((hmem first).mp List.mem_cons_self) List.not_mem_nil
      | cons first' rest' =>
          obtain ⟨hfirst, hrest⟩ := List.pairwise_cons.mp h
          obtain ⟨hfirst', hrest'⟩ := List.pairwise_cons.mp h'
          have hle : key first ≤ key first' := by
            rcases List.mem_cons.mp ((hmem first').mpr List.mem_cons_self) with
              heq | hmem'
            · rw [heq]
            · exact hfirst first' hmem'
          have hge : key first' ≤ key first := by
            rcases List.mem_cons.mp ((hmem first).mp List.mem_cons_self) with
              heq | hmem'
            · rw [heq]
            · exact hfirst' first hmem'
          have heq : key first' = key first := le_antisymm hge hle
          have hfronts := hkeys (key first)
          simp only [withKey, List.filter_cons, decide_true, heq, if_true] at hfronts
          obtain ⟨rfl, -⟩ := List.cons.inj hfronts
          have htails : ∀ k, withKey key rest k = withKey key rest' k := by
            intro k
            have hk := hkeys k
            simp only [withKey, List.filter_cons] at hk
            split at hk
            next => exact (List.cons.inj hk).2
            next => exact hk
          rw [ih hrest hrest' htails (mem_iff_of_withKey htails)]

theorem keyOrdered_sortByKey (arrivals : List α) :
    KeyOrdered key (sortByKey key arrivals) := by
  have hsorted : (sortByKey key arrivals).Pairwise fun x y =>
      decide (key x ≤ key y) = true := List.pairwise_mergeSort
    (fun x y z hxy hyz => decide_eq_true
      ((of_decide_eq_true hxy).trans (of_decide_eq_true hyz)))
    (fun x y => by simpa using le_total (key x) (key y)) arrivals
  exact hsorted.imp fun hle => of_decide_eq_true hle

theorem sortByKey_perm (arrivals : List α) :
    (sortByKey key arrivals).Perm arrivals :=
  List.mergeSort_perm arrivals _

theorem withKey_sortByKey (arrivals : List α) (k : K) :
    withKey key (sortByKey key arrivals) k = withKey key arrivals k := by
  have hequal : (withKey key arrivals k).Pairwise fun x y =>
      decide (key x ≤ key y) = true := by
    refine List.pairwise_of_forall_mem_list fun x hx y hy => decide_eq_true ?_
    rw [of_decide_eq_true (List.mem_filter.mp hx).2,
      of_decide_eq_true (List.mem_filter.mp hy).2]
  have hstable : (withKey key arrivals k).Sublist (sortByKey key arrivals) :=
    List.sublist_mergeSort
      (fun x y z hxy hyz => decide_eq_true
        ((of_decide_eq_true hxy).trans (of_decide_eq_true hyz)))
      (fun x y => by simpa using le_total (key x) (key y)) hequal
      List.filter_sublist
  have hsub : (withKey key arrivals k).Sublist
      (withKey key (sortByKey key arrivals) k) := by
    have hfilter := hstable.filter fun x => decide (key x = k)
    simpa only [withKey, List.filter_filter, Bool.and_self] using hfilter
  exact (hsub.eq_of_length
    ((sortByKey_perm arrivals).filter _).length_eq.symm).symm

theorem withKey_insertOrdered {queue : List α} (h : KeyOrdered key queue) (x : α)
    (k : K) :
    withKey key (insertOrdered key queue x) k =
      withKey key queue k ++ withKey key [x] k := by
  rw [insertOrdered_eq_filter h, ← List.singleton_append, withKey_append,
    withKey_append]
  by_cases hk : k ≤ key x
  · have hlow : withKey key (queue.filter fun y => decide (key y ≤ key x)) k =
        withKey key queue k := by
      rw [withKey, withKey, List.filter_filter]
      refine List.filter_congr fun y _ => ?_
      by_cases hy : key y = k
      · simp [hy, hk]
      · simp [hy]
    have hhigh : withKey key (queue.filter fun y => decide (key x < key y)) k =
        [] := by
      refine List.filter_eq_nil_iff.mpr fun y hy hyk => ?_
      have hlt : key x < key y := of_decide_eq_true (List.mem_filter.mp hy).2
      rw [of_decide_eq_true hyk] at hlt
      exact absurd hk (not_le.mpr hlt)
    rw [hlow, hhigh, List.append_nil]
  · have hlow : withKey key (queue.filter fun y => decide (key y ≤ key x)) k =
        [] := by
      refine List.filter_eq_nil_iff.mpr fun y hy hyk => hk ?_
      rw [← of_decide_eq_true hyk]
      exact of_decide_eq_true (List.mem_filter.mp hy).2
    have hhigh : withKey key (queue.filter fun y => decide (key x < key y)) k =
        withKey key queue k := by
      rw [withKey, withKey, List.filter_filter]
      refine List.filter_congr fun y _ => ?_
      by_cases hy : key y = k
      · simp [hy, not_le.mp hk]
      · simp [hy]
    have hnew : withKey key [x] k = [] :=
      List.filter_eq_nil_iff.mpr fun y hy hyk => hk (by
        rw [← of_decide_eq_true hyk, List.mem_singleton.mp hy])
    rw [hlow, hhigh, hnew, List.append_nil, List.nil_append, List.nil_append]

/-- Inserting the arrivals one by one sorts them. -/
theorem sortByKey_concat (arrivals : List α) (x : α) :
    sortByKey key (arrivals ++ [x]) = insertOrdered key (sortByKey key arrivals) x := by
  refine eq_of_keyOrdered (keyOrdered_sortByKey _)
    ((keyOrdered_sortByKey arrivals).insertOrdered x) fun k => ?_
  rw [withKey_insertOrdered (keyOrdered_sortByKey arrivals), withKey_sortByKey,
    withKey_sortByKey, withKey_append]

/-- With distinct keys the order of the arrivals does not matter. -/
theorem sortByKey_eq_of_perm {arrivals arrivals' : List α}
    (h : arrivals.Perm arrivals') (hdistinct : (arrivals.map key).Nodup) :
    sortByKey key arrivals = sortByKey key arrivals' := by
  have hperm : (sortByKey key arrivals).Perm (sortByKey key arrivals') :=
    (sortByKey_perm arrivals).trans (h.trans (sortByKey_perm arrivals').symm)
  refine hperm.eq_of_pairwise (fun x y hx hy hxy hyx => ?_)
    (keyOrdered_sortByKey arrivals) (keyOrdered_sortByKey arrivals')
  refine List.inj_on_of_nodup_map hdistinct
    ((sortByKey_perm arrivals).mem_iff.mp hx)
    (h.mem_iff.mpr ((sortByKey_perm arrivals').mem_iff.mp hy)) ?_
  exact le_antisymm hxy hyx

end Sorting

/-! ## Cuts -/

section Cuts

variable {key}

theorem filter_insertOrdered_of_pos {queue : List α} (h : KeyOrdered key queue)
    {p : α → Bool} {x : α} (hx : p x = true) :
    (insertOrdered key queue x).filter p = insertOrdered key (queue.filter p) x := by
  rw [insertOrdered_eq_filter h, insertOrdered_eq_filter (h.filter p),
    List.filter_append, List.filter_cons_of_pos hx]
  simp only [List.filter_filter, Bool.and_comm]

theorem filter_insertOrdered_of_neg {queue : List α} (h : KeyOrdered key queue)
    {p : α → Bool} {x : α} (hx : ¬p x = true) :
    (insertOrdered key queue x).filter p = queue.filter p := by
  rw [insertOrdered_eq_filter h, List.filter_append, List.filter_cons_of_neg hx,
    ← List.filter_append, ← takeWhile_eq_filter h, ← dropWhile_eq_filter h,
    List.takeWhile_append_dropWhile]

theorem rtake_cons_of_le {n : Nat} {x : α} {rest : List α} (h : n ≤ rest.length) :
    (x :: rest).rtake n = rest.rtake n := by
  rw [List.rtake, List.rtake, List.length_cons, Nat.succ_sub h, List.drop_succ_cons]

theorem rtake_of_length_le {n : Nat} {queue : List α} (h : queue.length ≤ n) :
    queue.rtake n = queue := by
  rw [List.rtake, Nat.sub_eq_zero_of_le h, List.drop_zero]

theorem rtake_suffix (n : Nat) (queue : List α) : queue.rtake n <:+ queue :=
  List.drop_suffix _ _

theorem insertOrdered_cons {first x : α} {rest : List α}
    (h : KeyOrdered key (first :: rest)) :
    insertOrdered key (first :: rest) x =
      if key first ≤ key x then first :: insertOrdered key rest x
      else x :: first :: rest := by
  rw [insertOrdered_eq_filter h]
  split
  next hle =>
    rw [insertOrdered_eq_filter (List.pairwise_cons.mp h).2]
    simp [hle, not_lt.mpr hle]
  next hlt =>
    rw [← takeWhile_eq_filter h, ← dropWhile_eq_filter h]
    simp [hlt]

/-- Only the last elements matter for where a new one stands among them. -/
theorem rtake_insertOrdered (n : Nat) {queue : List α} (h : KeyOrdered key queue)
    (x : α) :
    (insertOrdered key (queue.rtake n) x).rtake n =
      (insertOrdered key queue x).rtake n := by
  induction queue with
  | nil => rw [List.rtake_nil]
  | cons first rest ih =>
      by_cases hfits : (first :: rest).length ≤ n
      · rw [rtake_of_length_le hfits]
      · have hn : n ≤ rest.length := by
          rw [List.length_cons] at hfits
          omega
        rw [rtake_cons_of_le hn, ih (List.pairwise_cons.mp h).2,
          insertOrdered_cons h]
        split
        next hle =>
          rw [rtake_cons_of_le]
          rw [length_insertOrdered]
          omega
        next hlt =>
          -- `x` stands in front of all that is left
          have hfront : insertOrdered key rest x = x :: rest := by
            have hall : ∀ y ∈ rest, ¬key y ≤ key x := fun y hy hle =>
              hlt (((List.pairwise_cons.mp h).1 y hy).trans hle)
            rw [insertOrdered_eq_filter (List.pairwise_cons.mp h).2,
              List.filter_eq_nil_iff.mpr fun y hy => by simpa using hall y hy,
              List.filter_eq_self.mpr fun y hy => by simpa using hall y hy,
              List.nil_append]
          rw [hfront, rtake_cons_of_le hn,
            rtake_cons_of_le (hn.trans (Nat.le_succ _)), rtake_cons_of_le hn]

/-- The elements from some key on are the last ones. -/
theorem filter_rtake (n : Nat) {queue : List α} (h : KeyOrdered key queue)
    {p : α → Bool} (hp : ∀ x y, key x ≤ key y → p x = true → p y = true) :
    (queue.rtake n).filter p = (queue.filter p).rtake n := by
  induction queue with
  | nil => rw [List.rtake_nil, List.filter_nil, List.rtake_nil]
  | cons first rest ih =>
      obtain ⟨hfirst, hrest⟩ := List.pairwise_cons.mp h
      by_cases hpfirst : p first = true
      · have hall : ∀ y ∈ first :: rest, p y = true := by
          intro y hy
          rcases List.mem_cons.mp hy with rfl | hy
          · exact hpfirst
          · exact hp first y (hfirst y hy) hpfirst
        rw [List.filter_eq_self.mpr hall, List.filter_eq_self.mpr fun y hy =>
          hall y ((rtake_suffix n _).mem hy)]
      · rw [List.filter_cons_of_neg hpfirst]
        by_cases hfits : (first :: rest).length ≤ n
        · have hlength : (rest.filter p).length ≤ n :=
            (List.length_filter_le p rest).trans ((Nat.le_succ _).trans hfits)
          rw [rtake_of_length_le hfits, rtake_of_length_le hlength,
            List.filter_cons_of_neg hpfirst]
        · have hn : n ≤ rest.length := by
            rw [List.length_cons] at hfits
            omega
          rw [rtake_cons_of_le hn, ih hrest]

end Cuts

end DataCache.Foundation
