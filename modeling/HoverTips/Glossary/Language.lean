import HoverTips.Glossary.Definition

/-!
# The language

Keywords, the types and classes that come with the language, and the promise methods.
-/

namespace HoverTips.Glossary

/-- Keywords, literals and the names of primitive types. -/
def keywords : DefinitionTable where
  palette := .keyword
  rows := [
    ⟨"const", "keyword", "Declares a block-scoped binding that cannot be reassigned."⟩,
    ⟨"let", "keyword", "Declares a block-scoped, reassignable binding."⟩,
    ⟨"var", "keyword", "Declares a function-scoped binding. Prefer `let` or `const`."⟩,
    ⟨"function", "keyword", "Declares a function."⟩,
    ⟨"class", "keyword", "Declares a class."⟩,
    ⟨"interface", "keyword", "Declares the shape of an object type."⟩,
    ⟨"type", "keyword", "Declares a type alias."⟩,
    ⟨"enum", "keyword", "Declares a set of named constants."⟩,
    ⟨"extends", "keyword",
      "Inherits from a base class or interface, or constrains a type parameter."⟩,
    ⟨"implements", "keyword", "Declares that a class satisfies an interface."⟩,
    ⟨"return", "keyword", "Exits the current function, optionally with a value."⟩,
    ⟨"async", "keyword", "Marks a function that returns a Promise and may use `await`."⟩,
    ⟨"await", "keyword", "Pauses an async function until a Promise settles."⟩,
    ⟨"import", "keyword", "Brings bindings from another module into scope."⟩,
    ⟨"export", "keyword", "Makes a binding available to other modules."⟩,
    ⟨"from", "keyword", "Names the module an import or re-export comes from."⟩,
    ⟨"new", "keyword", "Creates an instance by calling a constructor."⟩,
    ⟨"this", "keyword", "The receiver of the current call."⟩,
    ⟨"super", "keyword", "Refers to the parent class."⟩,
    ⟨"if", "keyword", "Runs a statement when a condition is truthy."⟩,
    ⟨"else", "keyword", "Alternative branch of an `if` statement."⟩,
    ⟨"for", "keyword", "Loop statement."⟩,
    ⟨"while", "keyword", "Loops while a condition is truthy."⟩,
    ⟨"do", "keyword", "Loop whose body runs at least once."⟩,
    ⟨"switch", "keyword", "Selects a branch by comparing a value against cases."⟩,
    ⟨"case", "keyword", "A branch of a `switch` statement."⟩,
    ⟨"default", "keyword", "Fallback branch of a `switch`, or the default export."⟩,
    ⟨"break", "keyword", "Leaves the enclosing loop or switch."⟩,
    ⟨"continue", "keyword", "Skips to the next loop iteration."⟩,
    ⟨"try", "keyword", "Runs a block and catches exceptions it throws."⟩,
    ⟨"catch", "keyword", "Handles an exception thrown in a `try` block."⟩,
    ⟨"finally", "keyword", "Runs after `try`/`catch` regardless of outcome."⟩,
    ⟨"throw", "keyword", "Raises an exception."⟩,
    ⟨"typeof", "keyword",
      "Returns the runtime type tag of a value, or the static type in a type position."⟩,
    ⟨"keyof", "keyword", "Produces the union of a type's property names."⟩,
    ⟨"instanceof", "keyword", "Tests a value's prototype chain."⟩,
    ⟨"in", "keyword", "Tests for a property, or iterates keys in a `for` loop."⟩,
    ⟨"of", "keyword", "Iterates values in a `for` loop."⟩,
    ⟨"yield", "keyword", "Produces a value from a generator."⟩,
    ⟨"static", "keyword", "Declares a class member on the constructor itself."⟩,
    ⟨"public", "keyword", "Member accessible from anywhere."⟩,
    ⟨"private", "keyword", "Member accessible only inside its class."⟩,
    ⟨"protected", "keyword", "Member accessible inside its class and subclasses."⟩,
    ⟨"readonly", "keyword", "Property that cannot be reassigned after initialization."⟩,
    ⟨"abstract", "keyword", "Class or member that must be implemented by a subclass."⟩,
    ⟨"declare", "keyword", "Describes a binding that exists at runtime without emitting code."⟩,
    ⟨"as", "keyword", "Type assertion, or renames an import/export."⟩,
    ⟨"satisfies", "keyword", "Checks an expression against a type without widening it."⟩,
    ⟨"void", "keyword", "The absence of a return value."⟩,
    ⟨"null", "keyword", "The intentional absence of a value."⟩,
    ⟨"undefined", "keyword", "The value of an uninitialized binding."⟩,
    ⟨"true", "keyword", "Boolean true."⟩,
    ⟨"false", "keyword", "Boolean false."⟩,
    ⟨"any", "type", "Opts out of type checking."⟩,
    ⟨"unknown", "type", "Type-safe counterpart of `any`; must be narrowed before use."⟩,
    ⟨"never", "type", "The type of values that never occur."⟩,
    ⟨"number", "type", "Double-precision floating point numbers."⟩,
    ⟨"string", "type", "UTF-16 text."⟩,
    ⟨"boolean", "type", "`true` or `false`."⟩,
    ⟨"bigint", "type", "Arbitrary-precision integers."⟩,
    ⟨"symbol", "type", "Unique, immutable identifiers."⟩,
    ⟨"object", "type", "Any non-primitive value."⟩]

/-- Classes, namespaces, utility types and timers of the standard library. -/
def builtins : DefinitionTable where
  palette := .builtin
  rows := [
    ⟨"Array", "class", "Ordered, resizable list of values."⟩,
    ⟨"Map", "class", "Key/value collection that remembers insertion order."⟩,
    ⟨"Set", "class", "Collection of unique values."⟩,
    ⟨"WeakMap", "class", "Map whose keys are held weakly."⟩,
    ⟨"Object", "class", "Base of all objects; `Object.keys`, `Object.entries` and friends."⟩,
    ⟨"JSON", "namespace", "`JSON.parse` and `JSON.stringify`."⟩,
    ⟨"Math", "namespace", "Mathematical constants and functions."⟩,
    ⟨"Date", "class", "A single moment in time."⟩,
    ⟨"Error", "class", "Base class for runtime errors."⟩,
    ⟨"RegExp", "class", "Regular expression."⟩,
    ⟨"Symbol", "function", "Creates a unique symbol."⟩,
    ⟨"Record", "type", "`Record<K, V>`: object type with keys `K` and values `V`."⟩,
    ⟨"Partial", "type", "`Partial<T>`: every property of `T` made optional."⟩,
    ⟨"Required", "type", "`Required<T>`: every property of `T` made required."⟩,
    ⟨"Readonly", "type", "`Readonly<T>`: every property of `T` made readonly."⟩,
    ⟨"Pick", "type", "`Pick<T, K>`: the properties of `T` named in `K`."⟩,
    ⟨"Omit", "type", "`Omit<T, K>`: `T` without the properties named in `K`."⟩,
    ⟨"ReturnType", "type", "`ReturnType<F>`: the return type of function type `F`."⟩,
    ⟨"console", "namespace", "Debugging output: `log`, `warn`, `error`, `table`."⟩,
    ⟨"setTimeout", "function", "Runs a callback once after a delay in milliseconds."⟩,
    ⟨"setInterval", "function", "Runs a callback repeatedly at a fixed interval."⟩,
    ⟨"clearTimeout", "function", "Cancels a timer created with `setTimeout`."⟩,
    ⟨"clearInterval", "function", "Cancels a timer created with `setInterval`."⟩,
    ⟨"structuredClone", "function", "Deep-copies a value using the structured clone algorithm."⟩]

/-- Promises and their methods. -/
def promises : DefinitionTable where
  palette := .promise
  rows := [
    ⟨"Promise", "class Promise<T>",
      "Represents the eventual completion (or failure) of an asynchronous operation and its resulting value."⟩,
    ⟨"all", "Promise.all<T>(values: Iterable<T | PromiseLike<T>>): Promise<Awaited<T>[]>",
      "Resolves when every input resolves; rejects as soon as one rejects."⟩,
    ⟨"allSettled",
      "Promise.allSettled<T>(values: Iterable<T>): Promise<PromiseSettledResult<Awaited<T>>[]>",
      "Resolves after every input settles, reporting each outcome."⟩,
    ⟨"race", "Promise.race<T>(values: Iterable<T>): Promise<Awaited<T>>",
      "Settles as soon as the first input settles."⟩,
    ⟨"any", "Promise.any<T>(values: Iterable<T>): Promise<Awaited<T>>",
      "Resolves with the first fulfilled input; rejects with an AggregateError if all reject."⟩,
    ⟨"resolve", "Promise.resolve<T>(value: T): Promise<Awaited<T>>",
      "Returns a promise resolved with the given value."⟩,
    ⟨"reject", "Promise.reject<T = never>(reason?: any): Promise<T>",
      "Returns a promise rejected with the given reason."⟩,
    ⟨"then", "Promise<T>.then<R>(onFulfilled?, onRejected?): Promise<R>",
      "Attaches callbacks for the resolution and/or rejection of the promise."⟩,
    ⟨"catch", "Promise<T>.catch<R>(onRejected?): Promise<T | R>",
      "Attaches a callback for only the rejection of the promise."⟩,
    ⟨"finally", "Promise<T>.finally(onFinally?): Promise<T>",
      "Attaches a callback invoked when the promise settles, whatever the outcome."⟩,
    ⟨"PromiseLike", "interface PromiseLike<T>", "Any object with a compatible `then` method."⟩,
    ⟨"Awaited", "type Awaited<T>", "Recursively unwraps the value type of a promise."⟩]

end HoverTips.Glossary
