import Mathlib.Data.List.Forall2
import ShaderPipeline.Proofs.Memory.SideBySide
import ShaderPipeline.Proofs.Memory.Undersized

/-! The course of a placement. Some of the members are left out, and those that are placed lie one
behind the other, each with the stride of its element; under `std140` they lie on multiples of
sixteen, however deep their structs nest. -/

namespace ShaderPipeline.Memory

open Schema

/-- Why a member is left out at an offset: its type is unknown, or it does not fit. -/
inductive LeftOut (rule : Rule) (sizes : Nesting) (offset : Nat) (property : Property) : Prop
  | unknown (absent : (elementSize rule sizes property.type).result = .ok none)
  | tooLarge {element : ElementSize}
      (sized : (elementSize rule sizes property.type).result = .ok (some element))
      (large : fits offset (element.padded * property.length) = false)

/-- Members from an offset on, where they lie, and the offset behind them. -/
inductive Places (rule : Rule) (sizes : Nesting) :
    (offset : Nat) → List Property → List Placement → (finish : Nat) → Prop
  | nil {offset : Nat} : Places rule sizes offset [] [] offset
  | skipped {offset finish : Nat} {property : Property} {rest : List Property}
      {members : List Placement} (left : LeftOut rule sizes offset property)
      (others : Places rule sizes offset rest members finish) :
      Places rule sizes offset (property :: rest) members finish
  | placed {offset finish : Nat} {property : Property} {rest : List Property}
      {members : List Placement} {element : ElementSize}
      (sized : (elementSize rule sizes property.type).result = .ok (some element))
      (room : fits offset (element.padded * property.length) = true)
      (enough : element.tight ≤ element.padded)
      (others : Places rule sizes (offset + element.padded * property.length) rest members finish) :
      Places rule sizes offset (property :: rest)
        (⟨property.name, offset, element.padded, property.length,
          element.padded * property.length, element.padded - element.tight⟩ :: members) finish

section Course

variable {rule : Rule} {sizes : Nesting} {offset : Nat} {outer : String}

theorem places_of_ok {properties : List Property} {members : List Placement} {finish : Nat}
    (placed : (placeFrom outer rule sizes offset properties).result = .ok (members, finish)) :
    Places rule sizes offset properties members finish := by
  induction properties generalizing offset members with
  | nil =>
    cases placed
    exact .nil
  | cons property rest ih =>
    rw [result_placeFrom_cons] at placed
    cases sized : (elementSize rule sizes property.type).result with
    | error overflow => rw [sized] at placed; cases placed
    | ok element? =>
      rw [sized] at placed
      cases element? with
      | none => exact .skipped (.unknown sized) (ih placed)
      | some element =>
        dsimp only at placed
        split at placed
        next room =>
          split at placed
          next => cases placed
          next enough =>
            cases others : (placeFrom outer rule sizes _ rest).result with
            | error overflow => rw [others] at placed; cases placed
            | ok more =>
              rw [others] at placed
              cases placed
              exact .placed sized room (Nat.le_of_not_lt enough) (ih others)
        next full => exact .skipped (.tooLarge sized (by simpa using full)) (ih placed)

/-- Only the bytes of a value are ever subtracted from too few. -/
theorem eq_subtract_of_error
    (nested : ∀ name overflow, (sizes name).result = .error overflow → overflow = .subtract)
    {properties : List Property} {overflow : Overflow}
    (failed : (placeFrom outer rule sizes offset properties).result = .error overflow) :
    overflow = .subtract := by
  induction properties generalizing offset with
  | nil => cases failed
  | cons property rest ih =>
    rw [result_placeFrom_cons] at failed
    split at failed
    next inner sized =>
      cases failed
      cases type : property.type with
      | value builtIn => rw [type] at sized; cases sized
      | struct name =>
        rw [type] at sized
        exact nested name overflow sized
    next => exact ih failed
    next element sized =>
      dsimp only at failed
      split at failed
      next =>
        split at failed
        next => cases failed; rfl
        next =>
          cases others : (placeFrom outer rule sizes _ rest).result with
          | error inner =>
            rw [others] at failed
            cases failed
            exact ih others
          | ok more => rw [others] at failed; cases failed
      next => exact ih failed

end Course

/-! ### What a course gives -/

/-- A member that is placed: its name and its length, with the size of its element as its stride. -/
structure Represents (rule : Rule) (sizes : Nesting) (property : Property) (member : Placement) :
    Prop where
  name : member.name = property.name
  length : member.length = property.length
  element : (elementSize rule sizes property.type).result =
    .ok (some ⟨member.stride, member.stride - member.padding⟩)
  padding : member.padding ≤ member.stride

/-- Members one behind the other, the first at `offset`, and the offset behind the last. -/
def Chain : (offset : Nat) → List Placement → (finish : Nat) → Prop
  | offset, [], finish => finish = offset
  | offset, member :: rest, finish =>
    member.offset = offset ∧ member.size = member.stride * member.length ∧
      Chain (offset + member.size) rest finish

/-- The offset behind the last member. -/
def lastEnd (members : List Placement) : Nat :=
  match members.getLast? with
  | none => 0
  | some last => last.offset + last.size

namespace Chain

variable {offset finish : Nat} {members : List Placement}

theorem first (chain : Chain offset members finish) {member : Placement}
    (found : members[0]? = some member) : member.offset = offset := by
  cases members with
  | nil => cases found
  | cons head rest =>
    cases found
    exact chain.1

theorem next (chain : Chain offset members finish) {index : Nat} {member following : Placement}
    (found : members[index]? = some member) (after : members[index + 1]? = some following) :
    following.offset = member.offset + member.size := by
  induction members generalizing offset index with
  | nil => cases found
  | cons head rest ih =>
    obtain ⟨start, _, others⟩ := chain
    cases index with
    | zero =>
      cases found
      rw [start]
      exact others.first after
    | succ index => exact ih others found after

theorem size (chain : Chain offset members finish) :
    ∀ member ∈ members, member.size = member.stride * member.length := by
  induction members generalizing offset with
  | nil => exact fun _ absent => nomatch absent
  | cons head rest ih =>
    obtain ⟨_, own, others⟩ := chain
    exact List.forall_mem_cons.mpr ⟨own, ih others⟩

theorem finish_eq (chain : Chain offset members finish) :
    finish = (members.getLast?.map fun last => last.offset + last.size).getD offset := by
  induction members generalizing offset with
  | nil => exact chain
  | cons head rest ih =>
    obtain ⟨start, _, others⟩ := chain
    rw [ih others]
    cases rest with
    | nil => simp [start]
    | cons second more => simp [List.getLast?_cons]

theorem finish_eq_lastEnd (chain : Chain 0 members finish) : finish = lastEnd members := by
  rw [chain.finish_eq, lastEnd]
  cases members.getLast? <;> rfl

end Chain

namespace Places

variable {rule : Rule} {sizes : Nesting} {offset finish : Nat} {properties : List Property}
  {members : List Placement}

theorem chain (places : Places rule sizes offset properties members finish) :
    Chain offset members finish := by
  induction places with
  | nil => exact rfl
  | skipped _ _ ih => exact ih
  | placed _ _ _ _ ih => exact ⟨rfl, rfl, ih⟩

theorem subsequence (places : Places rule sizes offset properties members finish) :
    ∃ chosen : List Property, chosen.Sublist properties ∧
      List.Forall₂ (Represents rule sizes) chosen members := by
  induction places with
  | nil => exact ⟨[], .slnil, .nil⟩
  | @skipped _ _ property _ _ _ _ ih =>
    obtain ⟨chosen, kept, represents⟩ := ih
    exact ⟨chosen, kept.cons property, represents⟩
  | @placed _ _ property _ _ element sized room enough _ ih =>
    obtain ⟨chosen, kept, represents⟩ := ih
    refine ⟨property :: chosen, kept.cons_cons property,
      .cons ⟨rfl, rfl, ?_, Nat.sub_le _ _⟩ represents⟩
    rw [sized, Nat.sub_sub_self enough]

/-- The end of each member can be rounded up in 32 bits. -/
theorem bounded (places : Places rule sizes offset properties members finish) :
    ∀ member ∈ members, Rule.roundUp (member.offset + member.size) ≤ wordMax := by
  induction places with
  | nil => exact fun _ absent => nomatch absent
  | skipped _ _ ih => exact ih
  | placed _ room _ _ ih =>
    rw [fits, Bool.and_eq_true] at room
    exact List.forall_mem_cons.mpr ⟨of_decide_eq_true room.2, ih⟩

/-- Elements of multiples of sixteen bytes lie on multiples of sixteen. -/
theorem aligned (places : Places rule sizes offset properties members finish)
    (elements : ∀ type element, (elementSize rule sizes type).result = .ok (some element) →
      16 ∣ element.padded) (start : 16 ∣ offset) :
    (∀ member ∈ members, 16 ∣ member.stride ∧ 16 ∣ member.offset) ∧ 16 ∣ finish := by
  induction places with
  | nil => exact ⟨fun _ absent => (nomatch absent), start⟩
  | skipped _ _ ih => exact ih start
  | placed sized _ _ _ ih =>
    have stride := elements _ _ sized
    obtain ⟨others, ends⟩ := ih (Nat.dvd_add start (Nat.dvd_mul_right_of_dvd stride _))
    exact ⟨List.forall_mem_cons.mpr ⟨⟨stride, start⟩, others⟩, ends⟩

end Places

end ShaderPipeline.Memory
