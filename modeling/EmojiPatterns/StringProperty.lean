/-!
# Properties of strings

The seven properties of emoji sequences that a pattern may name.  Each is written in data files
and in patterns by its exact name.
-/

namespace EmojiPatterns

/-- A property whose members are sequences of characters. -/
inductive StringProperty where
  | basicEmoji
  | keycapSequence
  | modifierSequence
  | flagSequence
  | tagSequence
  | zwjSequence
  | rgiEmoji
deriving DecidableEq

namespace StringProperty

/-- Every property, in the order in which they are listed. -/
def all : List StringProperty :=
  [basicEmoji, keycapSequence, modifierSequence, flagSequence, tagSequence, zwjSequence, rgiEmoji]

def name : StringProperty → String
  | basicEmoji => "Basic_Emoji"
  | keycapSequence => "Emoji_Keycap_Sequence"
  | modifierSequence => "RGI_Emoji_Modifier_Sequence"
  | flagSequence => "RGI_Emoji_Flag_Sequence"
  | tagSequence => "RGI_Emoji_Tag_Sequence"
  | zwjSequence => "RGI_Emoji_ZWJ_Sequence"
  | rgiEmoji => "RGI_Emoji"

/-- The property with a given name. -/
def ofName? (name : String) : Option StringProperty :=
  all.find? fun property => property.name = name

/-- Whether the members follow from those of the other properties. -/
def isDerived (property : StringProperty) : Bool :=
  property = rgiEmoji

theorem mem_all (property : StringProperty) : property ∈ all := by
  cases property <;> decide

theorem mem_of_perm_all {order : List StringProperty} (horder : order.Perm all)
    (property : StringProperty) : property ∈ order :=
  horder.mem_iff.mpr property.mem_all

theorem ofName?_name (property : StringProperty) : ofName? property.name = some property := by
  cases property <;> decide

theorem ofName?_eq_some_iff {text : String} {property : StringProperty} :
    ofName? text = some property ↔ property.name = text := by
  constructor
  · intro hfound
    simpa using List.find?_some hfound
  · rintro rfl
    exact ofName?_name property

theorem name_injective {left right : StringProperty} (hname : left.name = right.name) :
    left = right := by
  have hleft := ofName?_name left
  rw [hname, ofName?_name right] at hleft
  exact (Option.some.inj hleft).symm

end StringProperty

end EmojiPatterns
