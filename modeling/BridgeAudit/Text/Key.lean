/-!
The two spellings of an object key.

A key is spelled in snake case (`block_index`) or in camel case (`blockIndex`).
Only ASCII capitals take part; every other character stands for itself.

* `Key.snake`: each capital becomes its small letter, with an underscore in
  front unless the capital opens the key.
* `Key.camel`: each run of underscores is dropped and the character behind it
  is raised.
-/

namespace BridgeAudit

namespace Key

/-- The part of a key behind its first character, in snake case. -/
def snakeTail : List Char → List Char
  | [] => []
  | c :: cs => if c.isUpper then '_' :: c.toLower :: snakeTail cs else c :: snakeTail cs

/-- A key in snake case, as characters. -/
def snakeChars : List Char → List Char
  | [] => []
  | c :: cs => c.toLower :: snakeTail cs

/-- A key in camel case, as characters; `raise` says that an underscore has just
been dropped. -/
def camelChars (raise : Bool) : List Char → List Char
  | [] => []
  | c :: cs =>
      if c = '_' then camelChars true cs
      else (if raise then c.toUpper else c) :: camelChars false cs

/-- The snake case spelling of a key. -/
def snake (key : String) : String := String.ofList (snakeChars key.toList)

/-- The camel case spelling of a key. -/
def camel (key : String) : String := String.ofList (camelChars false key.toList)

/-- No character of the key is an ASCII capital. -/
def NoCapital (key : String) : Prop := ∀ c ∈ key.toList, c.isUpper = false

/-- A character that is no capital is its own small letter. -/
theorem toLower_of_not_isUpper {c : Char} (h : c.isUpper = false) : c.toLower = c :=
  dif_neg (of_decide_eq_false h)

end Key

end BridgeAudit
