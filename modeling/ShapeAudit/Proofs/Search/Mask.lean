import Mathlib.Data.Finset.Dedup
import Mathlib.Data.Finset.Empty
import Mathlib.Data.Nat.Bitwise
import ShapeAudit.Search.Basic

/-!
# Words as sets of flags

A word assigns to the flag in place `j` the value of its bit `j`; it is no list
of flags to turn.  The set that belongs to a word holds the flags whose value
it changes.  For at most 63 flags with different names, the words below `2 ^ n`
and the sets of flags determine one another, and no shift of the search
overflows.
-/

namespace ShapeAudit.Search

open Config (Flag)

/-! ## Bits of a word -/

/-- A shift by less than 64 places is exact. -/
theorem toNat_bitAt {place : Nat} (small : place < 64) :
    (bitAt place).toNat = 2 ^ place := by
  have placeKept : (UInt64.ofNat place).toNat = place := by
    rw [UInt64.toNat_ofNat', Nat.mod_eq_of_lt (by omega)]
  have powerFits : 2 ^ place < 2 ^ 64 :=
    Nat.pow_lt_pow_right (by omega) small
  rw [bitAt, UInt64.toNat_shiftLeft, placeKept, Nat.mod_eq_of_lt small]
  simpa [Nat.shiftLeft_eq] using Nat.mod_eq_of_lt powerFits

/-- Masking a word with one bit tells that bit. -/
theorem and_bitAt_ne_zero
    (mask : UInt64) {place : Nat} (small : place < 64) :
    (mask &&& bitAt place != 0) = mask.toNat.testBit place := by
  have masked :
      (mask &&& bitAt place).toNat = (mask.toNat.testBit place).toNat * 2 ^ place := by
    rw [UInt64.toNat_and, toNat_bitAt small, Nat.and_two_pow]
  cases bit : mask.toNat.testBit place with
  | false =>
      have zero : mask &&& bitAt place = 0 := by
        apply UInt64.toNat_inj.mp
        simp [masked, bit]
      simp [zero]
  | true =>
      have nonzero : mask &&& bitAt place ≠ 0 := by
        intro equal
        have vanished := congrArg UInt64.toNat equal
        simp [masked, bit] at vanished
      simpa using nonzero

/-- The words of all assignments are the numbers below `2 ^ n`. -/
theorem masks_eq {count : Nat} (small : count ≤ 63) :
    masks count = (List.range (2 ^ count)).map UInt64.ofNat := by
  rw [masks, toNat_bitAt (by omega)]

theorem toNat_mask
    {count number : Nat} (small : count ≤ 63) (below : number < 2 ^ count) :
    (UInt64.ofNat number).toNat = number := by
  have powerFits : 2 ^ count < 2 ^ 64 :=
    Nat.pow_lt_pow_right (by omega) (by omega)
  rw [UInt64.toNat_ofNat', Nat.mod_eq_of_lt (by omega)]

/-- A bit of the word of a number is a bit of the number. -/
theorem bit_of_mask
    {count number place : Nat} (small : count ≤ 63) (below : number < 2 ^ count)
    (inside : place < count) :
    (UInt64.ofNat number &&& bitAt place != 0) = number.testBit place := by
  rw [and_bitAt_ne_zero _ (by omega), toNat_mask small below]

/-! ## Sets of flags -/

/-- The value of a flag once the flags of a set are turned. -/
def valueAfter (names : Finset String) (flag : Flag) : Bool :=
  if flag.1 ∈ names then !flag.2 else flag.2

/-- The flags of a set, each with its other value. -/
def turned (flags : List Flag) (names : Finset String) : List Flag :=
  (flags.filter fun flag => flag.1 ∈ names).map fun flag => (flag.1, !flag.2)

/-- All flags, those of a set with their other value. -/
def assigned (flags : List Flag) (names : Finset String) : List Flag :=
  flags.map fun flag => (flag.1, valueAfter names flag)

/-- The names of a set in the order of the flags. -/
def listing (flags : List Flag) (names : Finset String) : List String :=
  (flags.map Prod.fst).filter fun name => name ∈ names

/-- The number whose bit `j` is the value of flag `j` once the flags of a set
are turned. -/
def maskOf (flags : List Flag) (names : Finset String) : Nat :=
  Nat.ofBits fun place : Fin flags.length => valueAfter names (flags.get place)

/-- The flags whose value a number changes. -/
def subsetOf (flags : List Flag) (number : Nat) : Finset String :=
  ((flags.zipIdx.filter fun entry => entry.1.2 != number.testBit entry.2).map
    fun entry => entry.1.1).toFinset

/-- The sets of the numbers below `2 ^ n`, in the order of the numbers. -/
def subsetsInOrder (flags : List Flag) : List (Finset String) :=
  (List.range (2 ^ flags.length)).map (subsetOf flags)

/-- The names of all flags. -/
def nameFinset (flags : List Flag) : Finset String :=
  (flags.map Prod.fst).toFinset

theorem valueAfter_of_mem
    {names : Finset String} {flag : Flag} (isMember : flag.1 ∈ names) :
    valueAfter names flag = !flag.2 :=
  if_pos isMember

theorem valueAfter_of_not_mem
    {names : Finset String} {flag : Flag} (notMember : flag.1 ∉ names) :
    valueAfter names flag = flag.2 :=
  if_neg notMember

theorem mem_nameFinset (flags : List Flag) (name : String) :
    name ∈ nameFinset flags ↔ ∃ value, (name, value) ∈ flags := by
  simp [nameFinset]

theorem mem_subsetOf (flags : List Flag) (number : Nat) (name : String) :
    name ∈ subsetOf flags number ↔
      ∃ place value, flags[place]? = some (name, value) ∧
        value ≠ number.testBit place := by
  simp only [subsetOf, List.mem_toFinset, List.mem_map, List.mem_filter,
    List.mem_zipIdx_iff_getElem?, bne_iff_ne]
  constructor
  · rintro ⟨⟨⟨key, value⟩, place⟩, ⟨atPlace, different⟩, rfl⟩
    exact ⟨place, value, atPlace, different⟩
  · rintro ⟨place, value, atPlace, different⟩
    exact ⟨((name, value), place), ⟨atPlace, different⟩, rfl⟩

theorem subsetOf_subset (flags : List Flag) (number : Nat) :
    subsetOf flags number ⊆ nameFinset flags := by
  intro name isMember
  obtain ⟨place, value, atPlace, _⟩ := (mem_subsetOf flags number name).mp isMember
  exact (mem_nameFinset flags name).mpr ⟨value, List.mem_of_getElem? atPlace⟩

@[simp]
theorem listing_toFinset
    {flags : List Flag} {names : Finset String}
    (isSubset : names ⊆ nameFinset flags) :
    (listing flags names).toFinset = names := by
  ext name
  simp only [listing, List.mem_toFinset, List.mem_filter, decide_eq_true_eq]
  constructor
  · exact And.right
  · intro isMember
    exact ⟨List.mem_toFinset.mp (isSubset isMember), isMember⟩

/-! ## Numbers and sets determine one another -/

section Distinct

variable {flags : List Flag} (distinct : (flags.map Prod.fst).Nodup)

include distinct

/-- Flags of the same name are in the same place. -/
private theorem place_unique
    {first second : Nat} {name : String} {valueFirst valueSecond : Bool}
    (atFirst : flags[first]? = some (name, valueFirst))
    (atSecond : flags[second]? = some (name, valueSecond)) :
    first = second := by
  have firstBound : first < (flags.map Prod.fst).length := by
    simpa using (List.getElem?_eq_some_iff.mp atFirst).1
  apply (List.getElem?_inj firstBound distinct).mp
  simp [atFirst, atSecond]

/-- A flag is in the set of a number exactly when its bit is not its value. -/
theorem mem_subsetOf_iff
    {place : Nat} {flag : Flag} (atPlace : flags[place]? = some flag) (number : Nat) :
    flag.1 ∈ subsetOf flags number ↔ flag.2 ≠ number.testBit place := by
  rw [mem_subsetOf]
  constructor
  · rintro ⟨other, value, atOther, different⟩
    have samePlace : other = place := place_unique distinct atOther atPlace
    subst samePlace
    have sameFlag : (flag.1, value) = flag :=
      Option.some_inj.mp (atOther.symm.trans atPlace)
    rw [← sameFlag]
    exact different
  · intro different
    exact ⟨place, flag.2, atPlace, different⟩

/-- Turning the flags of a number's set gives every flag its bit. -/
theorem valueAfter_subsetOf
    {place : Nat} {flag : Flag} (atPlace : flags[place]? = some flag) (number : Nat) :
    valueAfter (subsetOf flags number) flag = number.testBit place := by
  have memberIff := mem_subsetOf_iff distinct atPlace number
  by_cases isMember : flag.1 ∈ subsetOf flags number
  · have different := memberIff.mp isMember
    rw [valueAfter_of_mem isMember]
    exact Bool.not_eq_eq_eq_not.mpr (Bool.eq_not.mpr different)
  · have same := not_not.mp (mt memberIff.mpr isMember)
    rw [valueAfter_of_not_mem isMember]
    exact same

theorem maskOf_subsetOf
    {number : Nat} (below : number < 2 ^ flags.length) :
    maskOf flags (subsetOf flags number) = number := by
  have bits :
      (fun place : Fin flags.length =>
        valueAfter (subsetOf flags number) (flags.get place)) =
        fun place : Fin flags.length => number.testBit place := by
    funext place
    exact valueAfter_subsetOf distinct (by simp) number
  rw [maskOf, bits, Nat.ofBits_testBit, Nat.mod_eq_of_lt below]

omit distinct in
theorem testBit_maskOf
    {place : Nat} {flag : Flag} (atPlace : flags[place]? = some flag)
    (names : Finset String) :
    (maskOf flags names).testBit place = valueAfter names flag := by
  obtain ⟨bound, getsFlag⟩ := List.getElem?_eq_some_iff.mp atPlace
  rw [maskOf, Nat.testBit_ofBits_lt _ _ bound]
  simp [getsFlag]

theorem subsetOf_maskOf
    {names : Finset String} (isSubset : names ⊆ nameFinset flags) :
    subsetOf flags (maskOf flags names) = names := by
  ext name
  have memberIff :
      ∀ {value : Bool}, (name, value) ∈ flags →
        (name ∈ subsetOf flags (maskOf flags names) ↔ name ∈ names) := by
    intro value listed
    obtain ⟨place, atPlace⟩ := List.getElem?_of_mem listed
    rw [mem_subsetOf_iff distinct atPlace, testBit_maskOf atPlace]
    by_cases isMember : name ∈ names <;> simp [valueAfter, isMember]
  constructor
  · intro isMember
    obtain ⟨value, listed⟩ :=
      (mem_nameFinset flags name).mp (subsetOf_subset flags _ isMember)
    exact (memberIff listed).mp isMember
  · intro isMember
    obtain ⟨value, listed⟩ := (mem_nameFinset flags name).mp (isSubset isMember)
    exact (memberIff listed).mpr isMember

theorem mem_subsetsInOrder (names : Finset String) :
    names ∈ subsetsInOrder flags ↔ names ⊆ nameFinset flags := by
  simp only [subsetsInOrder, List.mem_map, List.mem_range]
  constructor
  · rintro ⟨number, -, rfl⟩
    exact subsetOf_subset flags number
  · intro isSubset
    exact ⟨maskOf flags names, Nat.ofBits_lt_two_pow _, subsetOf_maskOf distinct isSubset⟩

theorem subsetsInOrder_ascending :
    (subsetsInOrder flags).Pairwise fun earlier later =>
      maskOf flags earlier < maskOf flags later := by
  rw [subsetsInOrder, List.pairwise_map]
  apply List.Pairwise.imp_of_mem _ List.pairwise_lt_range
  intro first second firstBelow secondBelow increasing
  rw [maskOf_subsetOf distinct (List.mem_range.mp firstBelow),
    maskOf_subsetOf distinct (List.mem_range.mp secondBelow)]
  exact increasing

/-! ## What the search makes of a word -/

/-- The word of a number assigns to all flags what turning its set gives. -/
theorem assignment_eq_assigned
    (small : flags.length ≤ 63) {number : Nat} (below : number < 2 ^ flags.length) :
    assignment flags (UInt64.ofNat number) =
      assigned flags (subsetOf flags number) := by
  apply List.ext_getElem
  · simp [assignment, assigned]
  · intro place inAssignment inAssigned
    have bound : place < flags.length := by
      simpa [assigned] using inAssigned
    have bit := bit_of_mask small below bound
    have value :=
      valueAfter_subsetOf distinct (List.getElem?_eq_getElem bound) number
    simp [assignment, assigned, bit, value]

omit distinct in
/-- The flags that an assignment changes are those that were turned. -/
theorem differing_assigned (flags : List Flag) (names : Finset String) :
    differing flags (assigned flags names) = listing flags names := by
  induction flags with
  | nil =>
      rfl
  | cons flag rest inductionHypothesis =>
      have restListed := inductionHypothesis
      simp only [differing, assigned, listing] at restListed
      by_cases isMember : flag.1 ∈ names
      · simp [differing, assigned, listing, valueAfter_of_mem isMember,
          isMember, restListed]
      · simp [differing, assigned, listing, valueAfter_of_not_mem isMember,
          isMember, restListed]

end Distinct

end ShapeAudit.Search
