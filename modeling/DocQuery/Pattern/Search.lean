import DocQuery.Pattern.Basic

set_option autoImplicit false

/-! # Searching by tables

Trying every length of every run takes time that grows exponentially with the number of runs. The
search here keeps tables instead. A table of a text has an entry for each of its places, one in
front of each character and one at its end, and tells where something holds. For each run of the
pattern, from the last to the first, one table tells where the run and all that follows it match;
the atoms between two runs then look up the next run's table. `search_eq_occursIn` says that this
finds the same matches. -/

namespace DocQuery.Pattern

/-! ## Tables -/

/-- The table of `test`, which is told of each place whether it is the start and what follows. -/
def tabulate (test : Bool → List Char → Bool) (atStart : Bool) : List Char → List Bool
  | [] => [test atStart []]
  | c :: rest => test atStart (c :: rest) :: tabulate test false rest

/-- Where a run matches that may end where `ends` tells. -/
def runTable : List Bool → List Char → List Bool
  | ends, [] => [ends.headD false]
  | ends, c :: rest =>
    let later := runTable ends.tail rest
    (ends.headD false || (c != '\n' && later.headD false)) :: later

/-- The atoms up to the first run match a beginning of `text`, and that run matches where they end.
    `runs` is the table of the run from here on. -/
def matchesUpToRun : List Atom → List Bool → Bool → List Char → Bool
  | [], _, _, _ => true
  | .char a :: atoms, runs, _, text =>
    match text with
    | [] => false
    | c :: rest => c == a && matchesUpToRun atoms runs.tail false rest
  | .any :: atoms, runs, _, text =>
    match text with
    | [] => false
    | c :: rest => c != '\n' && matchesUpToRun atoms runs.tail false rest
  | .anyRun :: _, runs, _, _ => runs.headD false
  | .start :: atoms, runs, atStart, text => atStart && matchesUpToRun atoms runs atStart text
  | .finish :: atoms, runs, atStart, text => text.isEmpty && matchesUpToRun atoms runs atStart text

/-- Where the atoms match, given the table of their first run. -/
def matchTable (atoms : List Atom) : List Bool → Bool → List Char → List Bool
  | runs, atStart, [] => [matchesUpToRun atoms runs atStart []]
  | runs, atStart, c :: rest =>
    matchesUpToRun atoms runs atStart (c :: rest) :: matchTable atoms runs.tail false rest

/-- Where the first run of the atoms matches together with all that follows it. Without a run there
    is no table. -/
def firstRunTable : List Atom → Bool → List Char → List Bool
  | [], _, _ => []
  | .anyRun :: atoms, atStart, text =>
    runTable (matchTable atoms (firstRunTable atoms atStart text) atStart text) text
  | _ :: atoms, atStart, text => firstRunTable atoms atStart text

/-- The atoms match somewhere in `text`. -/
def search (atoms : List Atom) (text : String) : Bool :=
  (matchTable atoms (firstRunTable atoms true text.toList) true text.toList).any id

/-! ## The search finds what there is -/

theorem headD_tabulate (test : Bool → List Char → Bool) (atStart : Bool)
    (text : List Char) : (tabulate test atStart text).headD false = test atStart text := by
  cases text <;> rfl

/-- The table of a run tells where skipping a run leads to an end. -/
theorem runTable_tabulate (test : Bool → List Char → Bool) (atStart : Bool) (text : List Char) :
    runTable (tabulate test atStart text) text = tabulate (skipRun test) atStart text := by
  induction text generalizing atStart with
  | nil => rfl
  | cons c rest ih =>
    simp only [runTable, tabulate, skipRun, List.headD_cons, List.tail_cons, ih, headD_tabulate]

/-- The table of the first run, one character further on. -/
theorem tail_firstRunTable (atoms : List Atom) (atStart : Bool) (c : Char) (rest : List Char) :
    (firstRunTable atoms atStart (c :: rest)).tail = firstRunTable atoms false rest := by
  induction atoms with
  | nil => rfl
  | cons atom atoms ih =>
    cases atom with
    | anyRun => simp [firstRunTable, matchTable, runTable, ih]
    | _ => exact ih

/-- With the right tests at the places, the table of the matches is the one of the tests. -/
theorem matchTable_eq_tabulate (atoms : List Atom)
    (h : ∀ atStart text, matchesUpToRun atoms (firstRunTable atoms atStart text) atStart text =
      matchesHere atoms atStart text) (atStart : Bool) (text : List Char) :
    matchTable atoms (firstRunTable atoms atStart text) atStart text =
      tabulate (matchesHere atoms) atStart text := by
  induction text generalizing atStart with
  | nil => simp [matchTable, tabulate, h]
  | cons c rest ih => simp [matchTable, tabulate, h, tail_firstRunTable, ih]

/-- Matching up to the first run and looking up the rest is matching. -/
theorem matchesUpToRun_firstRunTable (atoms : List Atom) (atStart : Bool) (text : List Char) :
    matchesUpToRun atoms (firstRunTable atoms atStart text) atStart text =
      matchesHere atoms atStart text := by
  induction atoms generalizing atStart text with
  | nil => rfl
  | cons atom atoms ih =>
    cases atom with
    | char a =>
      cases text with
      | nil => rfl
      | cons c rest => simp [matchesUpToRun, matchesHere, firstRunTable, tail_firstRunTable, ih]
    | any =>
      cases text with
      | nil => rfl
      | cons c rest => simp [matchesUpToRun, matchesHere, firstRunTable, tail_firstRunTable, ih]
    | anyRun =>
      simp only [matchesUpToRun, matchesHere, firstRunTable, matchTable_eq_tabulate atoms ih,
        runTable_tabulate, headD_tabulate]
    | start => simp [matchesUpToRun, matchesHere, firstRunTable, ih]
    | finish => simp [matchesUpToRun, matchesHere, firstRunTable, ih]

/-- A pattern occurs from a place on if its table has an entry that holds. -/
theorem any_tabulate_matchesHere (atoms : List Atom) (atStart : Bool) (text : List Char) :
    (tabulate (matchesHere atoms) atStart text).any id = occursFrom atoms atStart text := by
  induction text generalizing atStart with
  | nil => simp [tabulate, occursFrom]
  | cons c rest ih => simp [tabulate, occursFrom, ih]

/-- The search finds a match if and only if there is one. -/
theorem search_eq_occursIn (atoms : List Atom) (text : String) :
    search atoms text = occursIn atoms text := by
  rw [search, matchTable_eq_tabulate atoms (matchesUpToRun_firstRunTable atoms),
    any_tabulate_matchesHere, occursIn]

end DocQuery.Pattern
