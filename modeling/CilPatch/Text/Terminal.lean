/-!
# Control sequences of terminals

Text for a terminal may hold control sequences: an escape character with what belongs to it.
Where nothing understands them they are left out, together with all control characters but those
that are white space. White space within a sequence is shown, and so is what follows it up to the
next control character; only then the sequence goes on.
-/

namespace CilPatch.Terminal

/-- What a character is read as. -/
inductive State where
  /-- Text. -/
  | text
  /-- What follows an escape character. -/
  | escape
  /-- The rest of an escape sequence with intermediate characters. -/
  | intermediate
  /-- A control sequence with parameters, up to the letter at its end. -/
  | parameters
  /-- The start of a string with parameters. -/
  | device
  /-- The parameters of a string. -/
  | deviceParameters
  /-- The intermediate characters behind the parameters of a string. -/
  | deviceIntermediate
  /-- A string for the terminal, up to an escape character or the byte that ends it. -/
  | command
  /-- A command for the system, which a bell can end as well. -/
  | system
  deriving DecidableEq

/-- Whether a number lies in a range. -/
def isWithin (first last code : Nat) : Bool := first ≤ code && code ≤ last

/-- Whether a control character is white space. -/
def isSpacing (code : Nat) : Bool := isWithin 0x09 0x0A code || isWithin 0x0C 0x0D code

/-- Whether a character belongs to text. -/
def isText (c : Char) : Bool :=
  isSpacing c.toNat || (0x20 ≤ c.toNat && c.toNat != 0x7F)

/-- Whether the byte that ends a string is among those of a character. -/
def holdsTerminator (c : Char) : Bool := (String.utf8EncodeChar c).contains 0x9C

/-- Whether a character is shown. Spacing is, except in strings and commands. -/
def shows (state : State) (c : Char) : Bool :=
  match state with
  | .text => isText c
  | .escape | .intermediate | .parameters => isSpacing c.toNat
  | .device | .deviceParameters | .deviceIntermediate | .command | .system => false

/-- How the character after this one is read. -/
def next (state : State) (c : Char) : State :=
  let code := c.toNat
  if code = 0x1B then .escape
  else if code = 0x18 ∨ code = 0x1A then .text
  else
    match state with
    | .text => .text
    | .escape =>
        if c = '[' then .parameters
        else if c = ']' then .system
        else if c = 'P' then .device
        else if ['X', '^', '_'].contains c then .command
        else if isWithin 0x20 0x2F code then .intermediate
        else if isWithin 0x30 0x7E code then .text
        else .escape
    | .intermediate => if isWithin 0x30 0x7E code then .text else .intermediate
    | .parameters => if isWithin 0x40 0x7E code then .text else .parameters
    | .device =>
        if isWithin 0x20 0x2F code then .deviceIntermediate
        else if isWithin 0x30 0x3F code then .deviceParameters
        else if isWithin 0x40 0x7E code then .command
        else .device
    | .deviceParameters =>
        if isWithin 0x20 0x2F code then .deviceIntermediate
        else if isWithin 0x3C 0x7E code then .command
        else .deviceParameters
    | .deviceIntermediate => if isWithin 0x30 0x7E code then .command else .deviceIntermediate
    | .command => if holdsTerminator c then .text else .command
    | .system => if code = 0x07 then .text else .system

/-- The characters that are shown, from a state on. The flag tells whether the last one was: then
text is shown whatever the state is, and a character outside of ASCII ends the sequence. -/
def shown (state : State) (isShowing : Bool) : List Char → List Char
  | [] => []
  | c :: rest =>
      if isShowing && isText c then
        c :: shown (if c.toNat < 0x80 then state else .text) true rest
      else if shows state c then c :: shown (next state c) true rest
      else shown (next state c) false rest

/-- A text without control sequences. -/
def plain (text : String) : String := String.ofList (shown .text false text.toList)

/-- Text without control characters stays as it is. -/
theorem shown_text {chars : List Char} (isShowing : Bool)
    (h : ∀ c ∈ chars, 0x20 ≤ c.toNat ∧ c.toNat ≠ 0x7F) : shown .text isShowing chars = chars := by
  induction chars generalizing isShowing with
  | nil => rfl
  | cons c rest ih =>
      obtain ⟨hlow, hdel⟩ := h c List.mem_cons_self
      have htext : isText c = true := by simp [isText, hlow, hdel]
      have hnext : next .text c = .text := by
        have hesc : c.toNat ≠ 0x1B := by omega
        simp [next, hesc]
      have hrest := fun isShowing => ih isShowing fun d hd => h d (List.mem_cons_of_mem c hd)
      cases isShowing with
      | false => rw [shown, if_neg (by simp), if_pos (show shows .text c = true from htext),
          hnext, hrest]
      | true => rw [shown, if_pos (by simp [htext]), ite_self, hrest]

/-- A text between the control sequences that select styles and the one that ends them. -/
def styled (codes : List Nat) (text : String) : String :=
  let select (codes : List Nat) :=
    String.join (codes.map fun code => "\x1b[" ++ toString code ++ "m")
  select codes ++ text ++ select [0]

/-- Whether an environment asks for styles where there is no terminal. Whoever wants no colours
gets none. -/
def isForced (env : String → Option String) : Bool :=
  let given (name : String) := (env name).any (!·.isEmpty)
  !given "NO_COLOR" && given "CLICOLOR_FORCE"

end CilPatch.Terminal
