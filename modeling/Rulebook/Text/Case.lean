import Rulebook.Text.CaseTable

/-!
# Upper and lower case

Full case mapping without a locale. One letter depends on its neighbours: a capital sigma at the
end of a word becomes a final sigma, where characters that case ignores are looked through.
-/
namespace Rulebook

def inRanges (ranges : List (Nat × Nat)) (code : Nat) : Bool :=
  ranges.any fun (first, last) => first ≤ code && code ≤ last

def CaseRun.covers (run : CaseRun) (code : Nat) : Bool :=
  run.first ≤ code && code ≤ run.last && (code - run.first) % run.step == 0

/-- Maps one character by a table of runs and a table of expansions. -/
def mapCase (runs : List CaseRun) (expansions : List (Nat × List Nat)) (character : Char) :
    List Char :=
  let code := character.toNat
  match expansions.lookup code with
  | some codes => codes.map Char.ofNat
  | none =>
    match runs.find? (·.covers code) with
    | some run => [Char.ofNat (code + run.distance).toNat]
    | none => [character]

def upperChars (character : Char) : List Char :=
  mapCase upperRuns upperExpansions character

def lowerChars (character : Char) : List Char :=
  mapCase lowerRuns lowerExpansions character

def toUpperCase (text : String) : String :=
  String.ofList (text.toList.flatMap upperChars)

/-- Whether the first character that case does not ignore is cased. -/
def startsCased (characters : List Char) : Bool :=
  match characters.dropWhile fun character => inRanges caseIgnorableRanges character.toNat with
  | [] => false
  | character :: _ => inRanges casedRanges character.toNat

/-- Maps a text to lower case; `before` holds the characters already passed, last one first. -/
def lowerFrom : (before remaining : List Char) → List Char
  | _, [] => []
  | before, character :: rest =>
    let mapped :=
      -- Final after a cased letter, unless another one comes later in the word.
      if character = 'Σ' then
        if startsCased before && !startsCased rest then ['ς'] else ['σ']
      else lowerChars character
    mapped ++ lowerFrom (character :: before) rest

def toLowerCase (text : String) : String :=
  String.ofList (lowerFrom [] text.toList)

end Rulebook
