import Refinery.Code.Language

/-!
Worked examples. A small model takes the form of its answer from the example, so the example is in
the language of the code; languages without one get the JavaScript example.
-/

namespace Refinery.Prompt

def javascriptExample : List String := [
  "### EXAMPLE",
  "Input:",
  "```javascript",
  "function add(a, b) \x7b",
  "  var result = a + b;",
  "  var unused = 0;",
  "  return result;",
  "\x7d",
  "```",
  "Output:",
  "```javascript",
  "function add(a, b) \x7b",
  "  const result = a + b;",
  "  return result;",
  "\x7d",
  "```",
  "### END EXAMPLE"]

def typescriptExample : List String := [
  "### EXAMPLE",
  "Input:",
  "```typescript",
  "function getNames(users: Array<\x7b name: string \x7d>): string[] \x7b",
  "  var result: string[] = [];",
  "  for (var i = 0; i < users.length; i++) \x7b",
  "    result.push(users[i].name);",
  "  \x7d",
  "  return result;",
  "\x7d",
  "```",
  "Output:",
  "```typescript",
  "function getNames(users: Array<\x7b name: string \x7d>): string[] \x7b",
  "  return users.map(u => u.name);",
  "\x7d",
  "```",
  "### END EXAMPLE"]

def pythonExample : List String := [
  "### EXAMPLE",
  "Input:",
  "```python",
  "def bubble_sort(arr):",
  "    n = len(arr)",
  "    for i in range(n):",
  "        for j in range(n - i - 1):",
  "            if arr[j] > arr[j + 1]:",
  "                arr[j], arr[j + 1] = arr[j + 1], arr[j]",
  "    return arr",
  "```",
  "Output:",
  "```python",
  "def bubble_sort(arr):",
  "    n = len(arr)",
  "    for i in range(n - 1):",
  "        swapped = False",
  "        for j in range(n - i - 1):",
  "            if arr[j] > arr[j + 1]:",
  "                arr[j], arr[j + 1] = arr[j + 1], arr[j]",
  "                swapped = True",
  "        if not swapped:",
  "            break",
  "    return arr",
  "```",
  "### END EXAMPLE"]

def javaExample : List String := [
  "### EXAMPLE",
  "Input:",
  "```java",
  "public int sumArray(int[] arr) \x7b",
  "    int sum = 0;",
  "    for (int i = 0; i < arr.length; i++) \x7b",
  "        sum = sum + arr[i];",
  "    \x7d",
  "    return sum;",
  "\x7d",
  "```",
  "Output:",
  "```java",
  "public int sumArray(int[] arr) \x7b",
  "    int sum = 0;",
  "    for (int val : arr) \x7b",
  "        sum += val;",
  "    \x7d",
  "    return sum;",
  "\x7d",
  "```",
  "### END EXAMPLE"]

def cppExample : List String := [
  "### EXAMPLE",
  "Input:",
  "```cpp",
  "int findMax(std::vector<int>& v) \x7b",
  "    int max = v[0];",
  "    for (int i = 1; i < v.size(); i++) \x7b",
  "        if (v[i] > max) max = v[i];",
  "    \x7d",
  "    return max;",
  "\x7d",
  "```",
  "Output:",
  "```cpp",
  "int findMax(const std::vector<int>& v) \x7b",
  "    return *std::max_element(v.begin(), v.end());",
  "\x7d",
  "```",
  "### END EXAMPLE"]

/-- The languages that have an example. -/
def examples : List (String × List String) := [
  ("JavaScript", javascriptExample),
  ("TypeScript", typescriptExample),
  ("Python", pythonExample),
  ("Java", javaExample),
  ("C++", cppExample)]

def exampleFor (language : Language) : Text :=
  let ls := match examples.find? fun row => row.1.toList == language with
    | some row => row.2
    | none => javascriptExample
  Text.unlines (ls.map String.toList)

end Refinery.Prompt
