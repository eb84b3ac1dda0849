import SpaMigration.Options
import SpaMigration.Rule.Basic
import SpaMigration.Text.Basic

/-!
# The built-in rules

The rules that take a page-routed Next.js project to React Router and Vite, in their order.
-/
namespace SpaMigration.Rule

open Pattern (cat choice text oneOf noneOf many manyLazy atLeastOne optional blanks blanks1 quote boundary)

/-- A rule that puts a fixed text in place of each match. -/
def fixed (pattern : Pattern) (replacement description : String) (complexity : Complexity)
    (category : RuleCategory) : Rule :=
  { pattern, replacement := fun _ => replacement.toList, description, complexity, category }

/-- A rule that puts the first group between two fixed texts. -/
def around (pattern : Pattern) (before after description : String) (complexity : Complexity)
    (category : RuleCategory) : Rule :=
  { pattern
    replacement := fun m => before.toList ++ m.group 1 ++ after.toList
    description
    complexity
    category }

/-- A module name in quotes with an optional semicolon. -/
def moduleEnd (name : String) : Pattern := cat [quote, text name, quote, optional (text ";")]

/-- The words `import { name } from` with free white space. -/
def importOf (name : String) : Pattern :=
  cat [text "import", blanks, text "\x7b", blanks, text name, blanks, text "\x7d", blanks, text "from",
    blanks]

/-- The words `import { name } from`, where `type` may follow the first word. -/
def typeImportOf (names : Pattern) : Pattern :=
  cat [text "import", blanks1, optional (cat [text "type", blanks1]), text "\x7b", blanks, names, blanks,
    text "\x7d", blanks, text "from", blanks]

/-- A directive that marks a module for the client or the server, with its line. -/
def useDirective : Rule :=
  fixed
    (cat [.anchor .lineStart, many (oneOf " \t"), quote, text "use ", choice [text "client", text "server"],
      quote, optional (text ";"), many (oneOf " \t"), optional (text "\r"), optional (text "\n")])
    "" "Removed 'use client' / 'use server' directive" .simple .general

/-- The import of the router hook. -/
def routerImport : Rule :=
  fixed (cat [importOf "useRouter", moduleEnd "next/router"])
    "import \x7b useNavigate, useParams, useLocation \x7d from 'react-router-dom';"
    "Replaced next/router import with react-router-dom hooks" .medium .routing

/-- What a navigation hook is called in the new router. -/
def navigationHook? (name : String) : Option String :=
  match name with
  | "useRouter" => some "useNavigate"
  | "usePathname" => some "useLocation"
  | "useSearchParams" => some "useSearchParams"
  | "useParams" => some "useParams"
  | "redirect" => some "useNavigate"
  | "notFound" => some "useNavigate"
  | _ => none

/-- The import of the new hooks for a list of old names; nothing when none of them has a counterpart. -/
def navigationNames (names : List Char) : List Char :=
  let old := (Text.splitOn ',' names).map fun name => String.ofList (Text.trim name)
  let new := Text.dedup (old.filterMap navigationHook?)
  if new.isEmpty then []
  else ("import \x7b " ++ ", ".intercalate new ++ " \x7d from 'react-router-dom';").toList

/-- The import of navigation hooks. -/
def navigationImport : Rule where
  pattern := cat [text "import", blanks, text "\x7b", .group 1 (many (noneOf "\x7d")), text "\x7d", blanks,
    text "from", blanks, moduleEnd "next/navigation"]
  replacement := fun m => navigationNames (m.group 1)
  description := "Replaced next/navigation import with react-router-dom hooks"
  complexity := .medium
  category := .routing

/-- The call of the router hook. -/
def routerHook : Rule :=
  fixed (cat [text "const", blanks1, text "router", blanks, text "=", blanks, text "useRouter()"])
    "const navigate = useNavigate()" "Converted useRouter() to useNavigate()" .medium .routing

/-- A push onto the history. -/
def routerPush : Rule :=
  fixed (cat [boundary, text "router.push("]) "navigate(" "Converted router.push() to navigate()" .simple
    .routing

/-- A replacement of the current history entry. -/
def routerReplace : Rule :=
  around (cat [boundary, text "router.replace(", .group 1 (many (noneOf "()")), text ")"])
    "navigate(" ", \x7b replace: true \x7d)"
    "Converted router.replace() to navigate(..., \x7b replace: true \x7d)" .medium .routing

/-- A step back in the history. -/
def routerBack : Rule :=
  fixed (cat [boundary, text "router.back()"]) "navigate(-1)" "Converted router.back() to navigate(-1)"
    .simple .routing

/-- The parameters of the address. -/
def routerQuery : Rule :=
  fixed (cat [text "=", blanks, text "router.query", boundary]) "= useParams()"
    "Converted router.query to useParams()" .medium .routing

/-- The current address. -/
def routerPathname : Rule :=
  fixed (cat [boundary, text "router.", choice [text "pathname", text "asPath"], boundary])
    "useLocation().pathname" "Converted router.pathname to useLocation().pathname" .medium .routing

/-- The hook for the current address. -/
def pathnameHook : Rule :=
  fixed (cat [boundary, text "usePathname()"]) "useLocation().pathname"
    "Converted usePathname() to useLocation().pathname" .simple .routing

/-- A public environment variable. -/
def publicVariable : Rule :=
  around (cat [text "process.env.NEXT_PUBLIC_", .group 1 (atLeastOne (.set .word))])
    "import.meta.env.VITE_" "" "Converted NEXT_PUBLIC_ environment variables to import.meta.env.VITE_"
    .simple .config

/-- The import of the runtime configuration. -/
def configImport : Rule :=
  fixed (cat [text "import", blanks1, text "getConfig", blanks1, text "from", blanks,
      moduleEnd "next/config"])
    "// runtime config now comes from import.meta.env" "Removed next/config import" .medium .config

/-- A use of the runtime configuration. -/
def runtimeConfig : Rule :=
  fixed (cat [text "getConfig().", choice [text "publicRuntimeConfig", text "serverRuntimeConfig"]])
    "import.meta.env" "Converted getConfig() runtime config to import.meta.env" .medium .config

/-- The names of the functions that fetch data for a page. -/
def dataFetchingName : Pattern :=
  choice [text "getStaticProps", text "getServerSideProps", text "getStaticPaths"]

/-- An exported function that fetches data for a page. -/
def dataFetchingFunction : Rule where
  pattern := cat [text "export", blanks1, optional (.group 1 (cat [text "async", blanks1])),
    text "function", blanks1, .group 2 dataFetchingName, boundary]
  replacement := fun m =>
    "/* next2vite: ".toList ++ m.group 2 ++
      " runs at build/request time in Next.js; load this data client-side */\n".toList ++ m.group 1 ++
      "function ".toList ++ m.group 2
  description := "Unexported Next.js data-fetching function for client-side loading"
  complexity := .complex
  category := .dataFetching

/-- An exported constant that fetches data for a page. -/
def dataFetchingConstant : Rule where
  pattern := cat [text "export", blanks1, text "const", blanks1, .group 1 dataFetchingName, boundary]
  replacement := fun m =>
    "/* next2vite: ".toList ++ m.group 1 ++
      " must be replaced with client-side data loading */\nconst ".toList ++ m.group 1
  description := "Unexported Next.js data-fetching constant for client-side loading"
  complexity := .complex
  category := .dataFetching

/-- The import of the types of endpoint handlers. -/
def apiTypesImport : Rule :=
  fixed (cat [typeImportOf (cat [text "NextApiRequest", blanks, text ",", blanks, text "NextApiResponse"]),
      moduleEnd "next"])
    "import type \x7b Request, Response \x7d from 'express';"
    "Replaced Next.js API types import with express types" .medium .api

/-- The type of requests. -/
def requestType : Rule :=
  fixed (cat [boundary, text "NextApiRequest", boundary]) "Request" "Renamed NextApiRequest to Request"
    .simple .api

/-- The type of responses. -/
def responseType : Rule :=
  fixed (cat [boundary, text "NextApiResponse", boundary]) "Response" "Renamed NextApiResponse to Response"
    .simple .api

/-- The import of the type of pages. -/
def pageTypeImport : Rule :=
  fixed (cat [typeImportOf (text "NextPage"), moduleEnd "next"]) "import type \x7b FC \x7d from 'react';"
    "Replaced NextPage import with React FC" .simple .component

/-- The type of pages. -/
def pageType : Rule :=
  fixed (cat [boundary, text "NextPage", boundary]) "FC" "Renamed NextPage to FC" .simple .component

/-- The import of the properties of the application component. -/
def appPropsImport : Rule :=
  fixed (cat [typeImportOf (text "AppProps"), moduleEnd "next/app"])
    ("import type \x7b ComponentType \x7d from 'react';\n" ++
      "type AppProps = \x7b Component: ComponentType<any>; pageProps: any \x7d;")
    "Replaced next/app AppProps with a local type" .medium .component

/-- The import of a font. -/
def fontImport : Rule :=
  around (cat [text "import", blanks1, text "\x7b", many (noneOf "\x7d"), text "\x7d", blanks1,
      text "from", blanks, quote, text "next/font/", .group 1 (choice [text "google", text "local"]), quote,
      optional (text ";")])
    "/* next/font/" " removed: load fonts with a stylesheet or @fontsource */"
    "Removed next/font import" .medium .general

end SpaMigration.Rule

namespace SpaMigration.RuleSet

/-- The built-in rules in their order. -/
def builtin : RuleSet :=
  [.useDirective, .routerImport, .navigationImport, .routerHook, .routerPush, .routerReplace, .routerBack,
    .routerQuery, .routerPathname, .pathnameHook, .publicVariable, .configImport, .runtimeConfig,
    .dataFetchingFunction, .dataFetchingConstant, .apiTypesImport, .requestType, .responseType,
    .pageTypeImport, .pageType, .appPropsImport, .fontImport]

/-- The built-in rules without the categories that the options switch off. -/
def forOptions (options : Options) : RuleSet :=
  builtin.filter fun rule =>
    (options.transformDataFetching || rule.category != .dataFetching) &&
      (options.useRouter || rule.category != .routing)

end SpaMigration.RuleSet
