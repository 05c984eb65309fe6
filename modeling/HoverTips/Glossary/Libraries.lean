import HoverTips.Glossary.Definition

/-!
# Libraries

The names of the component library, of the browser and of the remote procedure call library that
pages use most.
-/

namespace HoverTips.Glossary

/-- Hooks and helpers for components. -/
def components : DefinitionTable where
  palette := .project
  rows := [
    ⟨"useState", "hook", "Adds a state variable to a component."⟩,
    ⟨"useEffect", "hook", "Synchronizes a component with an external system after render."⟩,
    ⟨"useLayoutEffect", "hook", "Like `useEffect`, but fires before the browser paints."⟩,
    ⟨"useMemo", "hook", "Caches the result of a calculation between renders."⟩,
    ⟨"useCallback", "hook", "Caches a function definition between renders."⟩,
    ⟨"useRef", "hook", "Holds a mutable value that does not trigger re-renders."⟩,
    ⟨"useContext", "hook", "Reads a context value from the nearest provider."⟩,
    ⟨"useReducer", "hook", "Manages state through a reducer function."⟩,
    ⟨"useTransition", "hook", "Marks state updates as non-blocking transitions."⟩,
    ⟨"createContext", "function", "Creates a context that components can provide or read."⟩,
    ⟨"forwardRef", "function", "Lets a component expose a DOM node to its parent via `ref`."⟩,
    ⟨"memo", "function", "Skips re-rendering a component when its props are unchanged."⟩,
    ⟨"Suspense", "component", "Shows a fallback until its children finish loading."⟩,
    ⟨"Fragment", "component", "Groups children without adding a DOM node."⟩]

/-- Objects and functions of the browser. -/
def browser : DefinitionTable where
  palette := .webApi
  rows := [
    ⟨"fetch", "fetch(input: RequestInfo | URL, init?: RequestInit): Promise<Response>",
      "Starts fetching a resource from the network."⟩,
    ⟨"Response", "interface Response", "The response to a `fetch` request."⟩,
    ⟨"Request", "interface Request", "A resource request for `fetch`."⟩,
    ⟨"Headers", "interface Headers", "HTTP request and response headers."⟩,
    ⟨"AbortController", "class AbortController",
      "Creates a signal that aborts one or more web requests."⟩,
    ⟨"AbortSignal", "interface AbortSignal",
      "Communicates with a request and aborts it when needed."⟩,
    ⟨"URL", "class URL", "Parses, constructs and normalizes URLs."⟩,
    ⟨"URLSearchParams", "class URLSearchParams",
      "Utility methods for working with a URL query string."⟩,
    ⟨"window", "var window: Window", "The global object in a browser context."⟩,
    ⟨"document", "var document: Document", "The loaded web page and entry point to the DOM tree."⟩,
    ⟨"localStorage", "var localStorage: Storage",
      "Key/value storage persisted across browser sessions."⟩,
    ⟨"sessionStorage", "var sessionStorage: Storage",
      "Key/value storage for the current tab session."⟩,
    ⟨"addEventListener", "addEventListener(type: string, listener: EventListener, options?): void",
      "Registers an event handler on the target."⟩,
    ⟨"removeEventListener",
      "removeEventListener(type: string, listener: EventListener, options?): void",
      "Removes a handler registered with `addEventListener`."⟩,
    ⟨"querySelector", "querySelector<E extends Element>(selectors: string): E | null",
      "Returns the first element matching the selector."⟩,
    ⟨"requestAnimationFrame", "requestAnimationFrame(callback: FrameRequestCallback): number",
      "Runs a callback before the next repaint."⟩,
    ⟨"IntersectionObserver", "class IntersectionObserver",
      "Observes visibility changes of an element relative to a root."⟩,
    ⟨"ResizeObserver", "class ResizeObserver", "Reports changes to the dimensions of an element."⟩,
    ⟨"MutationObserver", "class MutationObserver", "Watches for changes made to the DOM tree."⟩,
    ⟨"CustomEvent", "class CustomEvent<T>", "An event carrying application-defined data."⟩,
    ⟨"WebSocket", "class WebSocket", "A persistent, two-way connection to a server."⟩,
    ⟨"Worker", "class Worker", "Runs a script in a background thread."⟩,
    ⟨"navigator", "var navigator: Navigator", "The state and identity of the user agent."⟩]

/-- Clients and servers for remote procedure calls. -/
def procedureCalls : DefinitionTable where
  palette := .grpc
  rows := [
    ⟨"grpc", "module @grpc/grpc-js", "Pure JavaScript gRPC client and server."⟩,
    ⟨"Server", "class grpc.Server", "A gRPC server that hosts one or more services."⟩,
    ⟨"ServerCredentials", "class grpc.ServerCredentials",
      "Transport security settings for a server."⟩,
    ⟨"credentials", "namespace grpc.credentials", "Factories for channel and call credentials."⟩,
    ⟨"Metadata", "class grpc.Metadata", "Key/value pairs sent alongside a call."⟩,
    ⟨"status", "enum grpc.status", "Canonical gRPC status codes."⟩,
    ⟨"ServerUnaryCall", "interface ServerUnaryCall<Req, Res>",
      "Server-side handle for a unary call."⟩,
    ⟨"ServerWritableStream", "interface ServerWritableStream<Req, Res>",
      "Server-side handle for a server-streaming call."⟩,
    ⟨"sendUnaryData", "type sendUnaryData<Res>", "Callback used to answer a unary call."⟩,
    ⟨"makeClientConstructor",
      "makeClientConstructor(methods, serviceName): ServiceClientConstructor",
      "Builds a client class from a service definition."⟩,
    ⟨"loadPackageDefinition", "loadPackageDefinition(packageDef): GrpcObject",
      "Turns a loaded proto package into client constructors."⟩,
    ⟨"protoLoader", "module @grpc/proto-loader", "Loads `.proto` files into package definitions."⟩,
    ⟨"loadSync", "protoLoader.loadSync(filename, options?): PackageDefinition",
      "Synchronously parses `.proto` files."⟩,
    ⟨"addService", "Server.addService(service, implementation): void",
      "Registers handlers for a service."⟩,
    ⟨"bindAsync", "Server.bindAsync(port, creds, callback): void", "Binds the server to a port."⟩]

end HoverTips.Glossary
