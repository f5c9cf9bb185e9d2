import ContractAudit.Json.Value
import Mathlib.Data.List.Basic
import Mathlib.Data.List.Induction

/-!
# Scalars and the items kept of them

Equality of content goes across kinds: a truth value equals a number, and a whole number a binary64
number, whenever their exact values agree. That this is an equality at all is seen from what a
scalar stands for (`Value.content?`): nothing, some code points, or a place on the number line. Two
scalars are the same exactly if they stand for the same (`Value.IsScalar.same_iff`). `nan` lies
nowhere on the line, so it is none of the scalars here.

To go through a list and keep what is new is then to search for the first item of each content. The
invariant is `Value.KeepsFirsts`: what was gone through is covered by what is kept, and each item
that is kept stands at the first place of its content, in the order of these places. It is kept when
one more item is looked at (`Value.KeepsFirsts.concat`), and so it holds of the whole list
(`Value.keepsFirsts_dedup`).
-/

namespace ContractAudit

theorem Number.same_iff {m n : Number} {p : Binary64.Place} (hp : m.place? = some p) :
    m.same n = true ↔ n.place? = some p := by
  unfold Number.same
  rw [hp]
  cases n.place? with
  | none => simp
  | some q => simp [eq_comm]

theorem Number.exists_place {n : Number} (h : n ≠ .real .nan) : ∃ p, n.place? = some p := by
  cases n with
  | int n => exact ⟨.at n, rfl⟩
  | real x =>
    cases x with
    | nan => exact absurd rfl h
    | _ => exact ⟨_, rfl⟩

namespace Json

/-! ## Strings -/

namespace Str

theorem toNat_ofNat_of_isCharacter {n : Nat} (h : isCharacter n = true) :
    (Char.ofNat n).toNat = n := by
  have hvalid : n.isValidChar := by
    unfold isCharacter at h
    simp only [Bool.or_eq_true, Bool.and_eq_true, decide_eq_true_eq] at h
    unfold Nat.isValidChar
    omega
  unfold Char.ofNat
  rw [dif_pos hvalid]
  rfl

/-- The string of some code points has them, whether it is a text or not. -/
theorem points_ofPoints (points : List Nat) : (ofPoints points).points = points := by
  unfold ofPoints
  split
  · rename_i hall
    show ((String.ofList (points.map Char.ofNat)).toList).map Char.toNat = points
    rw [String.toList_ofList, List.map_map]
    refine (List.map_congr_left fun n hn => ?_).trans (List.map_id points)
    exact toNat_ofNat_of_isCharacter (List.all_eq_true.1 hall n hn)
  · rfl

theorem ofPoints_inj {points others : List Nat} :
    ofPoints points = ofPoints others ↔ points = others := by
  constructor
  · intro h
    rw [← points_ofPoints points, h, points_ofPoints]
  · exact congrArg ofPoints

end Str

/-! ## What a scalar stands for -/

/-- Nothing, code points, or a place on the number line. -/
inductive Content where
  | null
  | string (points : List Nat)
  | number (place : Binary64.Place)
deriving DecidableEq, Repr

namespace Value

/-- What a scalar stands for. A number does so by its exact value, and a truth value as one or zero;
`nan` stands for nothing that could be compared. -/
def content? : Value → Option Content
  | .null => some .null
  | .string s => some (.string s.points)
  | .bool b => some (.number (.at (if b then 1 else 0)))
  | .number n => n.place?.map .number
  | .list _ | .object _ => none

/-- The value is no list, no object and not `nan`. A string may be of any code points. -/
inductive IsScalar : Value → Prop where
  | null : IsScalar .null
  | bool (b : Bool) : IsScalar (.bool b)
  | number {n : Number} (h : n ≠ .real .nan) : IsScalar (.number n)
  | string (points : List Nat) : IsScalar (.string (.ofPoints points))

/-- One and zero in each of their kinds. A large whole number is neither the infinity nor the
binary64 number next to it. -/
example :
    content? (.bool true) = content? (.int 1) ∧ content? (.int 1) = content? (.real (.finite 1)) ∧
      content? (.bool false) = content? (.int 0) ∧
      content? (.int 0) = content? (.real .negativeZero) ∧
      content? (.int (2 ^ 1024)) ≠ content? (.real (.infinite false)) ∧
      content? (.int (2 ^ 53 + 1)) ≠ content? (.real (.finite (2 ^ 53))) := by
  decide

variable {x y : Value}

theorem content?_eq_null_iff : y.content? = some .null ↔ y = .null := by
  cases y <;> simp [content?]

theorem IsScalar.content?_eq_string_iff (h : y.IsScalar) {points : List Nat} :
    y.content? = some (.string points) ↔ y = .string (.ofPoints points) := by
  cases h <;> simp [content?, Str.points_ofPoints, Str.ofPoints_inj]

theorem content?_eq_number_iff {p : Binary64.Place} :
    y.content? = some (.number p) ↔ ∃ n, y.number? = some n ∧ n.place? = some p := by
  cases y with
  | bool b => cases b <;> simp [content?, number?, Number.place?]
  | _ => simp [content?, number?]

theorem same_iff_of_number? {n : Number} (h : x.number? = some n) :
    same x y = true ↔ ∃ m, y.number? = some m ∧ n.same m = true := by
  cases x with
  | bool b =>
    obtain rfl := Option.some.inj h
    rw [same]
    cases y.number? <;> simp
  | number m =>
    obtain rfl := Option.some.inj h
    rw [same]
    cases y.number? <;> simp
  | _ => cases h

/-- **Equality.** Scalars are the same if they stand for the same. -/
theorem IsScalar.same_iff (hx : x.IsScalar) (hy : y.IsScalar) :
    same x y = true ↔ x.content? = y.content? := by
  have hnumber : ∀ {n : Number}, x.number? = some n → n ≠ .real .nan →
      (same x y = true ↔ x.content? = y.content?) := by
    intro n hn hnan
    obtain ⟨p, hp⟩ := Number.exists_place hnan
    rw [same_iff_of_number? hn, content?_eq_number_iff.2 ⟨n, hn, hp⟩,
      eq_comm (a := some (Content.number p)), content?_eq_number_iff]
    exact exists_congr fun m => and_congr_right fun _ => Number.same_iff hp
  cases hx with
  | null =>
    rw [content?, eq_comm (a := some Content.null), content?_eq_null_iff]
    cases y <;> simp [same]
  | bool b => exact hnumber rfl nofun
  | number hn => exact hnumber rfl hn
  | string points =>
    rw [content?, Str.points_ofPoints, eq_comm (a := some (Content.string points)),
      hy.content?_eq_string_iff]
    cases hy <;> simp [same, eq_comm]

/-! ## Items kept once -/

/-- The first place in the list with an item that stands for the same as `x`. -/
def firstPlace (items : List Value) (x : Value) : Nat :=
  (items.map content?).idxOf x.content?

section FirstPlace

variable {items : List Value}

theorem firstPlace_lt (h : y.content? ∈ items.map content?) :
    firstPlace items y < items.length := by
  have hlt := List.idxOf_lt_length_of_mem h
  rwa [List.length_map] at hlt

/-- An item at the end comes too late to be the first of a content that is there already. -/
theorem firstPlace_concat_of_mem (h : y.content? ∈ items.map content?) :
    firstPlace (items ++ [x]) y = firstPlace items y := by
  unfold firstPlace
  rw [List.map_append, List.idxOf_append_of_mem h]

theorem firstPlace_concat_self (h : x.content? ∉ items.map content?) :
    firstPlace (items ++ [x]) x = items.length := by
  unfold firstPlace
  rw [List.map_append, List.idxOf_append_of_notMem h, List.map_singleton, List.idxOf_cons_self,
    List.length_map, Nat.add_zero]

end FirstPlace

/-- What is kept of a list: for each content the first item with it, in the order of the list. -/
structure KeepsFirsts (kept items : List Value) : Prop where
  covers : ∀ x ∈ items, ∃ y ∈ kept, y.content? = x.content?
  first : ∀ y ∈ kept, items[firstPlace items y]? = some y
  ordered : (kept.map (firstPlace items)).Pairwise (· < ·)

namespace KeepsFirsts

variable {kept items : List Value}

theorem subset (h : KeepsFirsts kept items) : kept ⊆ items :=
  fun y hy => List.mem_of_getElem? (h.first y hy)

/-- Items that stand for the same would have one first place. -/
theorem nodup_map_content? (h : KeepsFirsts kept items) : (kept.map content?).Nodup := by
  have hordered := List.pairwise_map.1 h.ordered
  refine List.pairwise_map.2 (hordered.imp fun {y z} hlt heq => ?_)
  unfold firstPlace at hlt
  rw [heq] at hlt
  omega

theorem content?_mem (h : KeepsFirsts kept items) : ∀ y ∈ kept, y.content? ∈ items.map content? :=
  fun _ hy => List.mem_map_of_mem (h.subset hy)

theorem first_concat (h : KeepsFirsts kept items) :
    ∀ y ∈ kept, (items ++ [x])[firstPlace (items ++ [x]) y]? = some y := by
  intro y hy
  have hmem := h.content?_mem y hy
  rw [firstPlace_concat_of_mem hmem, List.getElem?_append_left (firstPlace_lt hmem)]
  exact h.first y hy

theorem ordered_concat (h : KeepsFirsts kept items) :
    (kept.map (firstPlace (items ++ [x]))).Pairwise (· < ·) := by
  rw [List.map_congr_left fun y hy => firstPlace_concat_of_mem (h.content?_mem y hy)]
  exact h.ordered

theorem concat_of_mem (h : KeepsFirsts kept items) (hx : ∃ y ∈ kept, y.content? = x.content?) :
    KeepsFirsts kept (items ++ [x]) := by
  refine ⟨fun y hy => ?_, h.first_concat, h.ordered_concat⟩
  rcases List.mem_append.1 hy with hy | hy
  · exact h.covers y hy
  · obtain rfl := List.mem_singleton.1 hy
    exact hx

theorem concat_of_not_mem (h : KeepsFirsts kept items)
    (hx : ¬∃ y ∈ kept, y.content? = x.content?) : KeepsFirsts (kept ++ [x]) (items ++ [x]) := by
  -- what is covered is kept, so the content is new to the whole list
  have hnew : x.content? ∉ items.map content? := by
    intro hmem
    obtain ⟨y, hy, hyx⟩ := List.mem_map.1 hmem
    obtain ⟨z, hz, hzy⟩ := h.covers y hy
    exact hx ⟨z, hz, hzy.trans hyx⟩
  have hlast := firstPlace_concat_self hnew
  constructor
  case covers =>
    intro y hy
    rcases List.mem_append.1 hy with hy | hy
    · obtain ⟨z, hz, hzy⟩ := h.covers y hy
      exact ⟨z, List.mem_append_left _ hz, hzy⟩
    · obtain rfl := List.mem_singleton.1 hy
      exact ⟨y, List.mem_append_right _ List.mem_cons_self, rfl⟩
  case first =>
    intro y hy
    rcases List.mem_append.1 hy with hy | hy
    · exact h.first_concat y hy
    · obtain rfl := List.mem_singleton.1 hy
      rw [hlast, List.getElem?_concat_length]
  case ordered =>
    rw [List.map_append, List.pairwise_append]
    refine ⟨h.ordered_concat, List.pairwise_singleton _ _, ?_⟩
    intro i hi j hj
    obtain ⟨y, hy, rfl⟩ := List.mem_map.1 hi
    obtain rfl := List.mem_singleton.1 hj
    -- all others stand before the end of the list
    have hmem := h.content?_mem y hy
    rw [firstPlace_concat_of_mem hmem, hlast]
    exact firstPlace_lt hmem

/-- One more item is looked at: it is kept unless its content is. -/
theorem concat (h : KeepsFirsts kept items) (hitems : ∀ y ∈ items, y.IsScalar) (hx : x.IsScalar) :
    KeepsFirsts (keepNew kept x) (items ++ [x]) := by
  have hany : kept.any (same · x) = true ↔ ∃ y ∈ kept, y.content? = x.content? := by
    rw [List.any_eq_true]
    exact exists_congr fun y => and_congr_right fun hy => (hitems y (h.subset hy)).same_iff hx
  unfold keepNew
  split
  · rename_i hold
    exact h.concat_of_mem (hany.1 hold)
  · rename_i hnew
    exact h.concat_of_not_mem fun hold => hnew (hany.2 hold)

end KeepsFirsts

theorem keepsFirsts_dedup {items : List Value} (h : ∀ x ∈ items, x.IsScalar) :
    KeepsFirsts (dedup items) items := by
  induction items using List.reverseRecOn with
  | nil => exact ⟨List.forall_mem_nil _, List.forall_mem_nil _, .nil⟩
  | append_singleton items x ih =>
    have hitems : ∀ y ∈ items, y.IsScalar := fun y hy => h y (List.mem_append_left _ hy)
    have hx : x.IsScalar := h x (List.mem_append_right _ List.mem_cons_self)
    unfold dedup at ih ⊢
    rw [List.foldl_append]
    exact (ih hitems).concat hitems hx

end Value

end Json

end ContractAudit
