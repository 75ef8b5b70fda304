import Refinery.Text.Scan
import Refinery.Text.Folded
import Refinery.Code.Complexity

/-!
Well-known algorithms, recognised by what their code is called and calls. The rows are tried from
the most specific one on, without regard to case, and the first that occurs names the algorithm.
-/

namespace Refinery

structure Algorithm where
  label : Text
  complexity : Complexity
  deriving DecidableEq

namespace Algorithm
open Text

/-- A text, blanks, and an opening parenthesis. -/
def called (s : String) : Recogniser Unit := fun _ t => do
  let t ← after? s.toList t
  let _ ← char? '(' (trimLeft t)

/-- Two texts with one character other than a newline between them. -/
def joined (front back : String) : Recogniser Unit := fun _ t => do
  let t ← after? front.toList t
  match t with
  | c :: t => guard (c != '\n' && startsWith back.toList t)
  | [] => none

/-- A text and later on its line another one. -/
def sameLine (front back : String) : Recogniser Unit := fun _ t => do
  let t ← after? front.toList t
  guard (hasPart back.toList (before '\n' t))

/-- A text, blanks, and a word. -/
def naming (s : String) : Recogniser Unit := fun _ t => do
  let t ← after? s.toList t
  let t ← someBlanks? t
  let _ ← someWord? t

def wholly (s : String) : Recogniser Unit := fun before t =>
  (oneOfWords [s.toList] before t).map fun _ => ()

/-- A row of the table: any of the signs, what they are signs of, and its complexity. -/
structure Row where
  signs : List (Recogniser Unit)
  label : String
  complexity : String

/-- The rows, specific ones first. -/
def table : List Row := [
  ⟨[literal "quicksort", literal "partition", literal "pivot"], "Quick Sort", "O(n log n) avg"⟩,
  ⟨[literal "mergesort", literal "merge_sort", called "merge"], "Merge Sort", "O(n log n)"⟩,
  ⟨[literal "heapsort", literal "heap_sort", literal "heapify"], "Heap Sort", "O(n log n)"⟩,
  ⟨[literal "bubblesort", literal "bubble_sort"], "Bubble Sort", "O(n²)"⟩,
  ⟨[literal "insertionsort", literal "insertion_sort"], "Insertion Sort", "O(n²)"⟩,
  ⟨[literal "selectionsort", literal "selection_sort"], "Selection Sort", "O(n²)"⟩,
  ⟨[literal "binarysearch", literal "binary_search"], "Binary Search", "O(log n)"⟩,
  ⟨[wholly "bfs", joined "breadth" "first"], "BFS", "O(V+E)"⟩,
  ⟨[wholly "dfs", joined "depth" "first"], "DFS", "O(V+E)"⟩,
  ⟨[literal "dijkstra"], "Dijkstra's", "O((V+E) log V)"⟩,
  ⟨[joined "dynamic" "program", literal "dp[", literal "memo[", literal "memoiz"],
    "Dynamic Programming", "O(n²) typical"⟩,
  ⟨[literal "fibonacci", literal "fib("], "Fibonacci", "O(2ⁿ) naive"⟩,
  ⟨[literal "factorial"], "Factorial", "O(n)"⟩,
  ⟨[sameLine "hash" "map", literal "hashmap", literal "new map("], "Hash Map Lookup", "O(1) avg"⟩,
  ⟨[called ".sort"], "Array Sort", "O(n log n)"⟩,
  ⟨[called ".filter", called ".map", literal ".reduce"], "Functional Pipeline", "O(n)"⟩,
  ⟨[called "fetch", literal "axios.", literal "http."], "HTTP/API Call", "O(1) network"⟩,
  ⟨[literal "regex", literal "regexp", literal ".match("], "Regex Processing", "O(n·m) worst"⟩,
  ⟨[naming "class", naming "interface"], "OOP / Class Design", "N/A"⟩]

def customLabel : Text := "Custom Logic".toList

def ofText (code : Text) : Algorithm :=
  let code := folded code
  match table.find? fun row => row.signs.any (occurs · code) with
  | some row => ⟨row.label.toList, row.complexity.toList⟩
  | none => ⟨customLabel, Complexity.unknown⟩

end Algorithm
end Refinery
