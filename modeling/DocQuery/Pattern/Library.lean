import DocQuery.Pattern.Like
import DocQuery.Pattern.Search
import DocQuery.Pattern.Size

set_option autoImplicit false

/-! # Libraries that search for patterns

A library for regular expressions reads a pattern and searches texts for it. It knows many more
patterns than text conditions are written as; what it does with those is not said here. Plans that
are compiled hold no others, expressions that are made by hand may. -/

namespace DocQuery

/-- The pattern is the written form of a text condition. -/
inductive Pattern.IsBuilt : String → Prop where
  | wildcards (text : String) : IsBuilt (ofWildcards text)
  | beginning (text : String) : IsBuilt (ofBeginning text)
  | ending (text : String) : IsBuilt (ofEnd text)

/-- A library for patterns: the search for each pattern that it does not refuse. The written form of
    a text condition is refused if it is too large, and else found where its atoms occur. -/
class PatternLibrary where
  search? : String → Option (String → Bool)
  search?_of_isBuilt : ∀ pattern, Pattern.IsBuilt pattern →
    search? pattern = (Pattern.usable? pattern).map Pattern.occursIn

/-- The library that knows the patterns of text conditions alone, and those like them. -/
instance : PatternLibrary where
  search? pattern := (Pattern.usable? pattern).map Pattern.search
  search?_of_isBuilt pattern _ := by
    rw [funext fun atoms => funext (Pattern.search_eq_occursIn atoms)]

end DocQuery
