import CodeActions.Tree.Basic

/-!
# Counting syntax errors
-/

namespace CodeActions.Tree

mutual

/-- The number of errors and missing tokens in the tree. Parts that say they hold none are not
looked into. -/
def errorCount : Tree → Nat
  | node label _ children =>
    if label.hasError then
      (if label.isError || label.isMissing then 1 else 0) + totalErrorCount children
    else
      0

/-- The number of errors and missing tokens in all the trees. -/
def totalErrorCount : List Tree → Nat
  | [] => 0
  | t :: ts => t.errorCount + totalErrorCount ts

end

end CodeActions.Tree
