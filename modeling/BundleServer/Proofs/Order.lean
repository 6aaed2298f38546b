import BundleServer.Walk.Order
import Mathlib.Data.List.Sort

/-!
# Byte strings and siblings in order

`Bytes.compare` is the lexicographic comparison that lists inherit from their bytes, so the laws of a total order
without ties hold for it. A comparison that is lawful on the elements of one list sorts that list in the same way
whichever algorithm is used (`mergeSort_eq_insertionSort_of_mem`). For siblings this gives that the order of a walk
puts the entries of a directory into their only sorted sequence (`arrange_eq_sorted`), and that the order the other way
round puts them into the reverse of that sequence (`arrange_eq_reverse`).
-/

namespace BundleServer

namespace Bytes

theorem compare_eq_compareLex : compare = List.compareLex Ord.compare := by
  funext a b
  induction a generalizing b with
  | nil => cases b <;> rfl
  | cons x s ih =>
    cases b with
    | nil => rfl
    | cons y t => rw [compare, ih, List.compareLex_cons_cons]

instance : Std.TransCmp compare := by
  rw [compare_eq_compareLex]
  infer_instance

instance : Std.LawfulEqCmp compare := by
  rw [compare_eq_compareLex]
  infer_instance

end Bytes

section Sorting

variable {α : Type} {le : α → α → Bool} {l : List α}

/-- A list may be sorted as one of its own elements. -/
theorem map_mergeSort_attach (le : α → α → Bool) (l : List α) :
    (l.attach.mergeSort fun a b => le a.1 b.1).map Subtype.val = l.mergeSort le := by
  rw [List.map_mergeSort (s := le), List.attach_map_subtype_val]
  exact fun _ _ _ _ => rfl

/-- A comparison that is a total order without ties on the elements of a list sorts it in one way only. -/
theorem mergeSort_eq_insertionSort_of_mem
    (trans : ∀ a ∈ l, ∀ b ∈ l, ∀ c ∈ l, le a b → le b c → le a c)
    (total : ∀ a ∈ l, ∀ b ∈ l, le a b ∨ le b a)
    (tieFree : ∀ a ∈ l, ∀ b ∈ l, le a b → le b a → a = b) :
    l.mergeSort le = l.insertionSort fun a b => le a b := by
  let within (a b : {a // a ∈ l}) : Prop := le a.1 b.1
  have : DecidableRel within := fun a b => inferInstanceAs (Decidable (le a.1 b.1 = true))
  have : Std.Total within := ⟨fun a b => total a.1 a.2 b.1 b.2⟩
  have : IsTrans _ within := ⟨fun a b c => trans a.1 a.2 b.1 b.2 c.1 c.2⟩
  have : Std.Antisymm within := ⟨fun a b first second => Subtype.ext (tieFree a.1 a.2 b.1 b.2 first second)⟩
  have same : (fun a b => decide (within a b)) = fun a b => le a.1 b.1 := by
    funext a b
    exact Bool.eq_iff_iff.2 decide_eq_true_iff
  have inserted : (l.attach.insertionSort within).map Subtype.val = l.insertionSort fun a b => le a b := by
    rw [List.map_insertionSort within (fun a b => le a b), List.attach_map_subtype_val]
    exact fun _ _ _ _ => Iff.rfl
  rw [← map_mergeSort_attach, ← inserted, ← List.mergeSort_eq_insertionSort, same]

/-- A comparison that is a total order on the elements of a list sorts it. -/
theorem pairwise_mergeSort_of_mem
    (trans : ∀ a ∈ l, ∀ b ∈ l, ∀ c ∈ l, le a b → le b c → le a c)
    (total : ∀ a ∈ l, ∀ b ∈ l, le a b ∨ le b a) :
    (l.mergeSort le).Pairwise fun a b => le a b = true := by
  rw [← map_mergeSort_attach, List.pairwise_map]
  exact List.pairwise_mergeSort (fun a b c => trans a.1 a.2 b.1 b.2 c.1 c.2)
    (fun a b => Bool.or_eq_true_iff.2 (total a.1 a.2 b.1 b.2)) l.attach

end Sorting

section Ascending

variable {α β : Type} {compare : β → β → Ordering} [Std.OrientedCmp compare] (key : α → β)

/-- What ascends strictly stands nowhere twice. -/
theorem nodup_of_pairwise_lt {l : List α} (ascending : l.Pairwise fun a b => compare (key a) (key b) = .lt) :
    l.Nodup := by
  refine ascending.imp fun {a b} below same => ?_
  have self : compare (key b) (key b) = .eq := Std.ReflCmp.compare_self
  rw [same, self] at below
  cases below

/-- Two lists that ascend strictly and have the same elements are the same. -/
theorem eq_of_mem_iff_of_pairwise_lt {first second : List α}
    (ascending : first.Pairwise fun a b => compare (key a) (key b) = .lt)
    (ascending' : second.Pairwise fun a b => compare (key a) (key b) = .lt)
    (same : ∀ a, a ∈ first ↔ a ∈ second) : first = second := by
  have permuted : first.Perm second :=
    (List.perm_ext_iff_of_nodup (nodup_of_pairwise_lt key ascending) (nodup_of_pairwise_lt key ascending')).2 same
  refine permuted.eq_of_pairwise (fun one another _ _ below above => ?_) ascending ascending'
  rw [Std.OrientedCmp.gt_of_lt below] at above
  cases above

end Ascending

/-- Is the comparison a total order without ties on the names that entries can have? -/
structure OrdersNames (compare : Bytes → Bytes → Ordering) : Prop where
  swap : ∀ {a b : Bytes}, FileTree.isName a = true → FileTree.isName b = true →
    compare b a = (compare a b).swap
  tieFree : ∀ {a b : Bytes}, FileTree.isName a = true → FileTree.isName b = true → compare a b = .eq → a = b
  trans : ∀ {a b c : Bytes}, FileTree.isName a = true → FileTree.isName b = true → FileTree.isName c = true →
    compare a b = .lt → compare b c = .lt → compare a c = .lt

theorem ordersNames_bytes : OrdersNames Bytes.compare where
  swap _ _ := Std.OrientedCmp.eq_swap
  tieFree _ _ := Std.LawfulEqCmp.eq_of_compare
  trans _ _ _ := Std.TransCmp.lt_trans

namespace OrdersNames

variable {compare : Bytes → Bytes → Ordering} {a b c : Bytes}

theorem isLE_trans (lawful : OrdersNames compare) (namedA : FileTree.isName a = true)
    (namedB : FileTree.isName b = true) (namedC : FileTree.isName c = true)
    (first : (compare a b).isLE = true) (second : (compare b c).isLE = true) : (compare a c).isLE = true := by
  cases ab : compare a b with
  | gt => simp [ab] at first
  | eq =>
    obtain rfl := lawful.tieFree namedA namedB ab
    exact second
  | lt =>
    cases bc : compare b c with
    | gt => simp [bc] at second
    | eq =>
      obtain rfl := lawful.tieFree namedB namedC bc
      exact first
    | lt =>
      rw [lawful.trans namedA namedB namedC ab bc]
      rfl

theorem isLE_total (lawful : OrdersNames compare) (namedA : FileTree.isName a = true)
    (namedB : FileTree.isName b = true) : (compare a b).isLE = true ∨ (compare b a).isLE = true := by
  rw [lawful.swap namedA namedB]
  cases compare a b <;> simp

theorem eq_of_isLE (lawful : OrdersNames compare) (namedA : FileTree.isName a = true)
    (namedB : FileTree.isName b = true) (first : (compare a b).isLE = true)
    (second : (compare b a).isLE = true) : a = b := by
  rw [lawful.swap namedA namedB] at second
  cases same : compare a b with
  | eq => exact lawful.tieFree namedA namedB same
  | lt => simp [same] at second
  | gt => simp [same] at first

end OrdersNames

namespace SiblingOrder

/-- How the order compares the names of two entries of the directory at `path`. -/
def comparison (order : SiblingOrder) (path : Path) (a b : Bytes) : Ordering :=
  match order with
  | .lexicographic => Bytes.compare a b
  | .filesystem => .eq
  | .custom compare => compare (path.join a) (path.join b)

/-- Does the order put the entries of every directory in one sequence only? -/
def IsTotal : SiblingOrder → Prop
  | .lexicographic => True
  | .filesystem => False
  | .custom compare => ∀ path : Path, OrdersNames fun a b => compare (path.join a) (path.join b)

/-- The entries of the directory at `path`, each put in its place in turn. -/
def sorted (order : SiblingOrder) (path : Path) (entries : List (Bytes × FileTree.Kind)) :
    List (Bytes × FileTree.Kind) :=
  entries.insertionSort fun a b => (order.comparison path a.1 b.1).isLE

variable {order : SiblingOrder} {path : Path}

theorem ordersNames_comparison (total : order.IsTotal) : OrdersNames (order.comparison path) := by
  cases order with
  | lexicographic => exact ordersNames_bytes
  | filesystem => exact total.elim
  | custom compare => exact total path

theorem arrange_eq_mergeSort (order : SiblingOrder) (path : Path) (total : order.IsTotal)
    (entries : List (Bytes × FileTree.Kind)) :
    order.arrange path entries = entries.mergeSort fun a b => (order.comparison path a.1 b.1).isLE := by
  cases order with
  | filesystem => exact total.elim
  | lexicographic =>
    rw [arrange]
    congr 1
    funext a b
    simp only [comparison]
    cases Bytes.compare a.1 b.1 <;> rfl
  | custom compare =>
    rw [arrange]
    congr 1
    funext a b
    simp only [le, comparison]
    cases compare (path.join a.1) (path.join b.1) <;> rfl

/-- A total order takes the entries of a directory in their only sorted sequence. -/
theorem arrange_eq_sorted (total : order.IsTotal) {entries : List (Bytes × FileTree.Kind)}
    (distinct : (entries.map Prod.fst).Nodup) (named : ∀ entry ∈ entries, FileTree.isName entry.1 = true) :
    order.arrange path entries = order.sorted path entries := by
  have lawful : OrdersNames (order.comparison path) := ordersNames_comparison total
  rw [arrange_eq_mergeSort order path total, sorted]
  apply mergeSort_eq_insertionSort_of_mem
  · exact fun a memA b memB c memC => lawful.isLE_trans (named a memA) (named b memB) (named c memC)
  · exact fun a memA b memB => lawful.isLE_total (named a memA) (named b memB)
  · intro a memA b memB first second
    exact List.inj_on_of_nodup_map distinct memA memB
      (lawful.eq_of_isLE (named a memA) (named b memB) first second)

/-- A total order never puts an entry in front of a lesser one. -/
theorem pairwise_arrange (total : order.IsTotal) {entries : List (Bytes × FileTree.Kind)}
    (named : ∀ entry ∈ entries, FileTree.isName entry.1 = true) :
    (order.arrange path entries).Pairwise fun a b => (order.comparison path a.1 b.1).isLE = true := by
  have lawful : OrdersNames (order.comparison path) := ordersNames_comparison total
  rw [arrange_eq_mergeSort order path total]
  apply pairwise_mergeSort_of_mem
  · exact fun a memA b memB c memC => lawful.isLE_trans (named a memA) (named b memB) (named c memC)
  · exact fun a memA b memB => lawful.isLE_total (named a memA) (named b memB)

/-- Does the second order compare siblings the other way round? -/
def Reverses (order order' : SiblingOrder) : Prop :=
  ∀ (path : Path) {a b : Bytes}, FileTree.isName a = true → FileTree.isName b = true →
    order'.comparison path a b = order.comparison path b a

/-- A total order the other way round is a total order. -/
theorem Reverses.isTotal {order' : SiblingOrder} (reverses : order.Reverses order') (total : order.IsTotal) :
    order'.IsTotal := by
  have lawful (path : Path) : OrdersNames (order.comparison path) := ordersNames_comparison total
  cases order' with
  | lexicographic => trivial
  | filesystem =>
    -- Here all names tie, which a total order the other way round does not allow for two of them.
    have tie : order.comparison ⟨[]⟩ [0x62] [0x61] = .eq := (reverses ⟨[]⟩ (by decide) (by decide)).symm
    exact absurd ((lawful ⟨[]⟩).tieFree (by decide) (by decide) tie) (by decide)
  | custom compare =>
    intro path
    have turned {a b : Bytes} (namedA : FileTree.isName a = true) (namedB : FileTree.isName b = true) :
        compare (path.join a) (path.join b) = order.comparison path b a := reverses path namedA namedB
    constructor
    · intro a b namedA namedB
      rw [turned namedB namedA, turned namedA namedB, (lawful path).swap namedB namedA]
    · intro a b namedA namedB tie
      rw [turned namedA namedB] at tie
      exact ((lawful path).tieFree namedB namedA tie).symm
    · intro a b c namedA namedB namedC below below'
      rw [turned namedA namedB] at below
      rw [turned namedB namedC] at below'
      rw [turned namedA namedC]
      exact (lawful path).trans namedC namedB namedA below' below

/-- The other way round, the entries of a directory stand in the reverse sequence, whatever is listed first. -/
theorem arrange_eq_reverse {order' : SiblingOrder} (total : order.IsTotal) (reverses : order.Reverses order')
    {entries entries' : List (Bytes × FileTree.Kind)} (relisted : entries.Perm entries')
    (distinct : (entries.map Prod.fst).Nodup) (named : ∀ entry ∈ entries, FileTree.isName entry.1 = true) :
    order'.arrange path entries' = (order.arrange path entries).reverse := by
  have total' : order'.IsTotal := reverses.isTotal total
  have lawful : OrdersNames (order'.comparison path) := ordersNames_comparison total'
  have named' : ∀ entry ∈ entries', FileTree.isName entry.1 = true :=
    fun entry member => named entry (relisted.mem_iff.2 member)
  have ascending : (order'.arrange path entries').Pairwise fun a b => (order'.comparison path a.1 b.1).isLE = true :=
    pairwise_arrange total' named'
  have descending : (order.arrange path entries).reverse.Pairwise fun a b =>
      (order'.comparison path a.1 b.1).isLE = true := by
    rw [List.pairwise_reverse]
    refine (pairwise_arrange total named).imp_of_mem fun {a b} memA memB atMost => ?_
    have among {entry : Bytes × FileTree.Kind} (member : entry ∈ order.arrange path entries) :=
      named entry ((order.arrange_perm path entries).mem_iff.1 member)
    rw [reverses path (among memB) (among memA)]
    exact atMost
  have permuted : (order'.arrange path entries').Perm (order.arrange path entries).reverse :=
    (order'.arrange_perm path entries').trans
      (relisted.symm.trans ((order.arrange_perm path entries).symm.trans (List.reverse_perm _).symm))
  refine permuted.eq_of_pairwise (fun a b memA memB first second => ?_) ascending descending
  have inA : a ∈ entries := relisted.mem_iff.2 ((order'.arrange_perm path entries').mem_iff.1 memA)
  have inB : b ∈ entries := (order.arrange_perm path entries).mem_iff.1 (List.mem_reverse.1 memB)
  exact List.inj_on_of_nodup_map distinct inA inB (lawful.eq_of_isLE (named a inA) (named b inB) first second)

/-- In lexicographic order different names ascend. -/
theorem pairwise_arrange_lexicographic {entries : List (Bytes × FileTree.Kind)}
    (distinct : (entries.map Prod.fst).Nodup) :
    ((arrange .lexicographic path entries).map Prod.fst).Pairwise fun a b => Bytes.compare a b = .lt := by
  have ordered : (arrange .lexicographic path entries).Pairwise fun a b => (Bytes.compare a.1 b.1).isLE = true := by
    rw [arrange_eq_mergeSort .lexicographic path trivial]
    refine List.pairwise_mergeSort (fun a b c => Std.TransCmp.isLE_trans) (fun a b => ?_) entries
    have swap : Bytes.compare b.1 a.1 = (Bytes.compare a.1 b.1).swap := Std.OrientedCmp.eq_swap
    simp only [swap]
    cases Bytes.compare a.1 b.1 <;> rfl
  have different : ((arrange .lexicographic path entries).map Prod.fst).Pairwise (· ≠ ·) :=
    ((arrange_perm .lexicographic path entries).map Prod.fst).nodup_iff.2 distinct
  rw [List.pairwise_map] at different ⊢
  refine ordered.imp₂ (fun a b atMost differs => ?_) different
  cases result : Bytes.compare a.1 b.1 with
  | lt => rfl
  | eq => exact absurd (Std.LawfulEqCmp.eq_of_compare result) differs
  | gt => simp [result] at atMost

end SiblingOrder

end BundleServer
