/-!
# Precedence

Mappings and view resolvers declare an order; lower orders come first, and equal ones keep the order
of their registration.
-/

namespace Switchyard.Order

def highest : Int := -2147483648

/-- The order that comes after all others, that of anything that declares none. -/
def lowest : Int := 2147483647

def sortBy (order : α → Int) (items : List α) : List α :=
  items.mergeSort fun a b => order a ≤ order b

variable (order : α → Int) (items : List α)

theorem sortBy_perm : (sortBy order items).Perm items := List.mergeSort_perm items _

private theorem before_trans (a b c : α) :
    decide (order a ≤ order b) → decide (order b ≤ order c) → decide (order a ≤ order c) := by
  simp only [decide_eq_true_eq]
  omega

private theorem before_total (a b : α) :
    decide (order a ≤ order b) || decide (order b ≤ order a) := by
  simp only [Bool.or_eq_true, decide_eq_true_eq]
  omega

theorem sortBy_pairwise : (sortBy order items).Pairwise fun a b => order a ≤ order b := by
  rw [sortBy]
  simpa only [decide_eq_true_eq] using
    List.pairwise_mergeSort (before_trans order) (before_total order) items

theorem filter_sortBy (n : Int) :
    (sortBy order items).filter (order · = n) = items.filter (order · = n) := by
  have hequal : (items.filter (order · = n)).Pairwise fun a b => decide (order a ≤ order b) := by
    rw [List.pairwise_filter]
    apply List.pairwise_of_forall
    intro a b ha hb
    simp_all
  have hsub := List.sublist_mergeSort (before_trans order) (before_total order) hequal
    List.filter_sublist
  have hfiltered := hsub.filter (order · = n)
  rw [List.filter_filter] at hfiltered
  simp only [Bool.and_self] at hfiltered
  have hlength := ((sortBy_perm order items).filter (order · = n)).length_eq
  exact (hfiltered.eq_of_length hlength.symm).symm

end Switchyard.Order
