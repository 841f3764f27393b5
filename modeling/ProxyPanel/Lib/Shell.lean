import Mathlib.Data.List.Basic
import Mathlib.Tactic.Common

/-!
# Words of a shell command

A command line by the quoting rules of a POSIX shell, as far as a pipeline of simple commands
goes.  `lex` gives up on an unquoted character that can mean anything else: an expansion, a
pattern, a redirection, another operator, a comment, an assignment.  Text between single quotes
is taken as it is, and `lex_escaped` is the round trip of the usual escape of a single quote.
-/

namespace ProxyPanel.Shell

inductive Token where
  | word (text : List Char)
  | pipe
  deriving DecidableEq, Repr

/-- Characters of a word that need no quotes. -/
def isPlain (c : Char) : Bool := c.isAlphanum || c ∈ ['-', '_', '.', '/', ':', ',', '+', '@']

/-- What a backslash between double quotes takes the meaning from. -/
def isEscapable (c : Char) : Bool := c ∈ ['$', Char.ofNat 96, '"', '\\']

/-- A word that was begun is complete. -/
def flush (word : Option (List Char)) (tokens : List Token) : List Token :=
  match word with
  | some text => .word text :: tokens
  | none => tokens

inductive Quoting where
  | unquoted
  | single
  | double

/-- The tokens of what is left, with the word that was begun. -/
def lex : Quoting → Option (List Char) → List Char → Option (List Token)
  | .unquoted, word, [] => some (flush word [])
  | .unquoted, word, '\'' :: cs => lex .single (some (word.getD [])) cs
  | .unquoted, word, '"' :: cs => lex .double (some (word.getD [])) cs
  -- A backslash before the end of a line joins the lines.
  | .unquoted, word, '\\' :: '\n' :: cs => lex .unquoted word cs
  | .unquoted, word, '\\' :: c :: cs => lex .unquoted (some (word.getD [] ++ [c])) cs
  | .unquoted, word, ' ' :: cs => (lex .unquoted none cs).map (flush word)
  | .unquoted, word, '\t' :: cs => (lex .unquoted none cs).map (flush word)
  | .unquoted, word, '|' :: cs => (lex .unquoted none cs).map fun tokens =>
    flush word (.pipe :: tokens)
  | .unquoted, word, c :: cs =>
    if isPlain c then lex .unquoted (some (word.getD [] ++ [c])) cs else none
  | .single, word, '\'' :: cs => lex .unquoted word cs
  | .single, word, c :: cs => lex .single (some (word.getD [] ++ [c])) cs
  | .single, _, [] => none
  | .double, word, '"' :: cs => lex .unquoted word cs
  | .double, word, '\\' :: '\n' :: cs => lex .double word cs
  | .double, word, '\\' :: c :: cs =>
    lex .double (some (word.getD [] ++ (if isEscapable c then [c] else ['\\', c]))) cs
  | .double, word, c :: cs =>
    if isEscapable c then none else lex .double (some (word.getD [] ++ [c])) cs
  | .double, _, [] => none

/-- The words of each command of a pipeline. -/
def commands : List Token → List (List String)
  | [] => [[]]
  | .pipe :: tokens => [] :: commands tokens
  | .word text :: tokens =>
    match commands tokens with
    | [] => [[String.ofList text]]
    | command :: rest => (String.ofList text :: command) :: rest

/-- Words that do not name a command when they come first. -/
def reserved : List String :=
  ["if", "then", "else", "elif", "fi", "do", "done", "case", "esac", "while", "until", "for", "in",
    "function", "select", "time", "!"]

/-- A command has a word, and the first one names it. -/
def isCommand (command : List String) : Bool :=
  match command with
  | [] => false
  | name :: _ => name ∉ reserved

/-- A pipeline of simple commands. -/
def parsePipeline (line : String) : Option (List (List String)) :=
  (lex .unquoted none line.toList).bind fun tokens =>
    if (commands tokens).all isCommand then some (commands tokens) else none

/-! ### Writing a command -/

/-- A single quote ends the quoted text, stands escaped, and begins it again. -/
def escape (text : List Char) : List Char :=
  text.flatMap fun c => if c = '\'' then ['\'', '\\', '\'', '\''] else [c]

inductive Arg where
  | plain (text : String)
  | quoted (text : String)

namespace Arg

def text : Arg → String
  | plain text => text
  | quoted text => text

def chars : Arg → List Char
  | plain text => text.toList
  | quoted text => '\'' :: (escape text.toList ++ ['\''])

/-- What stands without quotes needs none. -/
def Valid : Arg → Prop
  | plain text => text ≠ "" ∧ ∀ c ∈ text.toList, isPlain c = true
  | quoted _ => True

end Arg

def writeCommand : List Arg → List Char
  | [] => []
  | [a] => a.chars
  | a :: as => a.chars ++ ' ' :: writeCommand as

def writePipeline : List (List Arg) → List Char
  | [] => []
  | [command] => writeCommand command
  | command :: rest => writeCommand command ++ ' ' :: '|' :: ' ' :: writePipeline rest

/-! ### Reading it back -/

section Lex

variable {word : Option (List Char)} {c : Char} {cs rest text : List Char}

-- The equations of the lexer are made once, here, and not by each proof that asks for them.
attribute [local simp] lex

theorem lex_plain (h : isPlain c = true) :
    lex .unquoted word (c :: cs) = lex .unquoted (some (word.getD [] ++ [c])) cs := by
  have hne : ∀ d, isPlain d = false → c ≠ d := by
    rintro d hd rfl
    rw [h] at hd
    cases hd
  rw [lex]
  · rw [if_pos h]
  · exact hne '\'' (by decide)
  · exact hne '"' (by decide)
  · exact fun _ heq _ => hne '\\' (by decide) heq
  · exact fun _ _ heq _ => hne '\\' (by decide) heq
  · exact hne ' ' (by decide)
  · exact hne '\t' (by decide)
  · exact hne '|' (by decide)

theorem lex_plains (h : ∀ c ∈ text, isPlain c = true) (begun : List Char) :
    lex .unquoted (some begun) (text ++ rest) = lex .unquoted (some (begun ++ text)) rest := by
  induction text generalizing begun with
  | nil => rw [List.nil_append, List.append_nil]
  | cons c text ih =>
    rw [List.cons_append, lex_plain (h c List.mem_cons_self),
      ih fun d hd => h d (List.mem_cons_of_mem c hd), Option.getD_some, List.append_assoc,
      List.singleton_append]

/-- **The escape is undone between single quotes**, for every text. -/
theorem lex_escaped (text begun rest : List Char) :
    lex .single (some begun) (escape text ++ '\'' :: rest) =
      lex .unquoted (some (begun ++ text)) rest := by
  induction text generalizing begun with
  | nil => rw [List.append_nil, escape, List.flatMap_nil, List.nil_append, lex]
  | cons c text ih =>
    rw [escape, List.flatMap_cons, ← escape, List.append_assoc]
    by_cases hc : c = '\''
    · subst hc
      rw [if_pos rfl]
      simp only [List.cons_append, List.nil_append]
      -- The quote closes, the escaped quote is a character, and the next one opens again.
      rw [lex, lex, lex, Option.getD_some, Option.getD_some, ih, List.append_assoc,
        List.singleton_append]
      exact nofun
    · rw [if_neg hc, List.singleton_append, lex, Option.getD_some, ih, List.append_assoc,
        List.singleton_append]
      exact hc

theorem lex_arg {a : Arg} (h : a.Valid) (rest : List Char) :
    lex .unquoted none (a.chars ++ rest) = lex .unquoted (some a.text.toList) rest := by
  cases a with
  | plain text =>
    obtain ⟨hne, hplain⟩ := h
    cases htext : text.toList with
    | nil => exact absurd (String.toList_inj.mp htext) hne
    | cons c cs =>
      rw [htext] at hplain
      rw [Arg.chars, Arg.text, htext, List.cons_append, lex_plain (hplain c List.mem_cons_self),
        lex_plains fun d hd => hplain d (List.mem_cons_of_mem c hd)]
      rfl
  | quoted text =>
    rw [Arg.chars, Arg.text, List.cons_append, lex, List.append_assoc]
    exact lex_escaped text.toList [] rest

theorem lex_blank (rest : List Char) : lex .unquoted word (' ' :: rest) =
    (lex .unquoted none rest).map (flush word) := by
  rw [lex]

/-- The tokens of a command. -/
def words (args : List Arg) : List Token := args.map fun a => .word a.text.toList

theorem lex_writeCommand {args : List Arg} (hvalid : ∀ a ∈ args, a.Valid) (hne : args ≠ []) :
    lex .unquoted none (writeCommand args) = some (words args) ∧
      ∀ rest, lex .unquoted none (writeCommand args ++ ' ' :: rest) =
        (lex .unquoted none rest).map (words args ++ ·) := by
  induction args with
  | nil => exact absurd rfl hne
  | cons a args ih =>
    have ha := lex_arg (hvalid a List.mem_cons_self)
    cases args with
    | nil =>
      refine ⟨?_, fun rest => ?_⟩
      · rw [writeCommand, ← List.append_nil a.chars, ha, lex]
        rfl
      · rw [writeCommand, ha, lex_blank]
        rfl
    | cons b args =>
      obtain ⟨hend, hmore⟩ := ih (fun a' h => hvalid a' (List.mem_cons_of_mem a h))
        (List.cons_ne_nil b args)
      refine ⟨?_, fun rest => ?_⟩
      · rw [writeCommand, ha, lex_blank, hend]
        · rfl
        · exact nofun
      · rw [writeCommand, List.append_assoc, List.cons_append, ha, lex_blank, hmore,
          Option.map_map]
        · rfl
        · exact nofun

theorem commands_words (args : List Arg) : commands (words args) = [args.map Arg.text] := by
  induction args with
  | nil => rfl
  | cons a args ih =>
    rw [words, List.map_cons, ← words, commands, ih]
    simp only [String.ofList_toList, List.map_cons]

theorem commands_words_pipe (args : List Arg) (tokens : List Token) :
    commands (words args ++ .pipe :: tokens) = args.map Arg.text :: commands tokens := by
  induction args with
  | nil => rfl
  | cons a args ih =>
    rw [words, List.map_cons, ← words, List.cons_append, commands, ih]
    simp only [String.ofList_toList, List.map_cons]

end Lex

/-- **A command line that is written is read back**: as many commands as were written, with the
same words. -/
theorem parsePipeline_write {pipeline : List (List Arg)} (hne : pipeline ≠ [])
    (hvalid : ∀ args ∈ pipeline, ∀ a ∈ args, a.Valid)
    (hcommand : ∀ args ∈ pipeline, isCommand (args.map Arg.text) = true) :
    parsePipeline (String.ofList (writePipeline pipeline)) =
      some (pipeline.map (·.map Arg.text)) := by
  have hargs : ∀ args ∈ pipeline, args ≠ [] := by
    rintro args hmem rfl
    cases hcommand _ hmem
  obtain ⟨tokens, htokens, hcommands⟩ : ∃ tokens,
      lex .unquoted none (writePipeline pipeline) = some tokens ∧
        commands tokens = pipeline.map (·.map Arg.text) := by
    clear hcommand
    induction pipeline with
    | nil => exact absurd rfl hne
    | cons args pipeline ih =>
      obtain ⟨hend, hmore⟩ :=
        lex_writeCommand (hvalid args List.mem_cons_self) (hargs args List.mem_cons_self)
      cases pipeline with
      | nil => exact ⟨words args, hend, commands_words args⟩
      | cons next pipeline =>
        obtain ⟨tokens, htokens, hcommands⟩ := ih (List.cons_ne_nil next pipeline)
          (fun args' h => hvalid args' (List.mem_cons_of_mem args h))
          (fun args' h => hargs args' (List.mem_cons_of_mem args h))
        refine ⟨words args ++ .pipe :: tokens, ?_, ?_⟩
        · rw [writePipeline, hmore, lex, lex_blank, htokens]
          · rfl
          · exact nofun
        · rw [commands_words_pipe, hcommands]
          rfl
  rw [parsePipeline, String.toList_ofList, htokens, Option.bind_some, hcommands,
    if_pos (List.all_eq_true.mpr ?_)]
  intro command hmem
  obtain ⟨args, hargs, rfl⟩ := List.mem_map.mp hmem
  exact hcommand args hargs

end ProxyPanel.Shell
