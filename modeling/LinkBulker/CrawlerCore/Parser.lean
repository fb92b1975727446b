import LinkBulker.Shared.Acceptor
import LinkBulker.Worker.Crawler

/-! `packages/crawler-core/src/parser.ts` and `matcher.ts`.  The two forms of the `URL` constructor
and the document that `parseHTML` builds are parameters. -/

namespace LinkBulker.Parser

open Db Shared Crawler

structure ParsedURL extends URL where
  pathname : String
  href : String
  deriving DecidableEq

structure Node where
  getAttribute : String → Option String
  textContent : Option String := some ""

/-- `head` is the `querySelector` of the first `<head>`. -/
structure Document where
  head : Option (String → Option Node) := none
  querySelectorAll : String → List Node

/-- `new URL(s)`, `new URL(s, base)` and `parseHTML`. -/
structure Platform where
  newURL : String → Option ParsedURL
  newURLFrom : String → String → Option ParsedURL
  parseHTML : String → Document

def Platform.parser (p : Platform) : UrlParser := fun s => (p.newURL s).map ParsedURL.toURL

/-- `/^(mailto|tel|javascript|data|sms|ftp):/i`. -/
def isSkippedScheme (href : String) : Bool :=
  ["mailto:", "tel:", "javascript:", "data:", "sms:", "ftp:"].any fun scheme =>
    scheme.toList.isPrefixOf (toLowerCase href).toList

def resolveURL (p : Platform) (href baseUrl : String) : Option ParsedURL :=
  if href = "" then none
  else
    let trimmed := trim href
    if trimmed = "" then none
    else if isSkippedScheme trimmed then none
    else (p.newURLFrom trimmed baseUrl).filter fun u =>
      u.protocol = "http:" || u.protocol = "https:"

def resolveHref (p : Platform) (href baseUrl : String) : Option String :=
  (resolveURL p href baseUrl).map ParsedURL.href

structure LinkTagSelector where
  selector : String
  tag : String
  attr : String
  deriving DecidableEq

def LINK_TAG_SELECTORS : List LinkTagSelector :=
  [⟨"a[href]", "a", "href"⟩, ⟨"link[href]", "link", "href"⟩, ⟨"area[href]", "area", "href"⟩,
    ⟨"[data-href]", "data-href", "data-href"⟩, ⟨"[data-link]", "data-link", "data-link"⟩,
    ⟨"[data-url]", "data-url", "data-url"⟩]

/-- The two characters beyond ASCII with an ASCII character in what they are in lower case.  The others
stay as they are: no word that is looked for has one of them. -/
def lowerChar (c : Char) : List Char :=
  if c = '\u0130' then ['i', '\u0307'] else if c = '\u212A' then ['k'] else [c.toLower]

/-- `toLowerCase` of the texts of a page. -/
def lowerText (s : String) : String := String.ofList (s.toList.flatMap lowerChar)

/-- `\w`. -/
def isWordChar (c : Char) : Bool := c.isAlphanum || c = '_'

/-- `\bword\b`, from a place after a word character or not. -/
def hasWord (word : List Char) : Bool → List Char → Bool
  | _, [] => false
  | afterWord, c :: cs =>
    (!afterWord && word.isPrefixOf (c :: cs) &&
      !(((c :: cs).drop word.length).head?.any isWordChar)) || hasWord word (isWordChar c) cs

/-- `/\bnoindex\b/i`, which takes no character beyond ASCII for one of the word. -/
def isNoindex (value : Option String) : Bool :=
  match value with
  | none | some "" => false
  | some value => hasWord "noindex".toList false (toLowerCase value).toList

/-- `replace(/^www\./i, '')`. -/
def replaceWww (hostname : String) : String :=
  if "www.".toList.isPrefixOf (toLowerCase hostname).toList then
    String.ofList (hostname.toList.drop 4)
  else hostname

/-- `replace(/\/+$/, '')`. -/
def replaceSlashes (pathname : String) : String :=
  String.ofList (pathname.toList.rdropWhile (· = '/'))

def urlsEqualForCanonical (p : Platform) (a b : String) : Bool :=
  match p.newURL a, p.newURL b with
  | some ua, some ub =>
    let hostA := toLowerCase (replaceWww ua.hostname)
    let hostB := toLowerCase (replaceWww ub.hostname)
    let pathA := replaceSlashes ua.pathname
    let pathB := replaceSlashes ub.pathname
    hostA = hostB && pathA = pathB
  | _, _ => a = b

/-- `split(/\s+/)` without the empty pieces at the ends. -/
def words (s : String) : List (List Char) := (s.toList.splitOnP isWhiteSpace).filter (· ≠ [])

def relTokens (relAttr : Option String) : List String :=
  match relAttr with
  | none | some "" => []
  | some relAttr => (words relAttr).map fun word => lowerText (trim (String.ofList word))

/-- `replace(/\s+/g, ' ').trim()`. -/
def anchorText (textContent : Option String) : String :=
  String.intercalate " " ((words (textContent.getD "")).map String.ofList)

def occurrence (tag : LinkTagSelector) (node : Node) (abs : String) (position : ℕ) :
    LinkOccurrence where
  href := abs
  anchor := anchorText node.textContent
  rel := relTokens (node.getAttribute "rel")
  target := node.getAttribute "target"
  tag := tag.tag
  position := position

def matchedHref (p : Platform) (baseUrl acceptorHost : String) (tag : LinkTagSelector)
    (node : Node) : Option String :=
  match node.getAttribute tag.attr with
  | none | some "" => none
  | some rawHref =>
    match resolveHref p rawHref baseUrl with
    | none | some "" => none
    | some abs =>
      match safeHost p.parser abs with
      | none | some "" => none
      | some host => if host ≠ acceptorHost then none else some abs

/-- The loop over the nodes of one selector; `position` counts on over all of them. -/
def scanNodes (p : Platform) (baseUrl acceptorHost : String) (tag : LinkTagSelector) :
    List LinkOccurrence × ℕ → List Node → List LinkOccurrence × ℕ :=
  List.foldl fun (occurrences, position) node =>
    match matchedHref p baseUrl acceptorHost tag node with
    | none => (occurrences, position)
    | some abs => (occurrences ++ [occurrence tag node abs position], position + 1)

def scanDocument (p : Platform) (baseUrl acceptorHost : String) (document : Document) :
    List LinkOccurrence :=
  (LINK_TAG_SELECTORS.foldl (fun scan tag =>
    scanNodes p baseUrl acceptorHost tag scan (document.querySelectorAll tag.selector)) ([], 0)).1

structure ParseInput where
  html : String
  finalUrl : String
  responseHeaders : List (String × String)
  acceptorHost : String

structure Donor extends ParsedDonor where
  baseUrl : String

def parseDonorHtml (p : Platform) (input : ParseInput) : Donor :=
  let document := p.parseHTML (if input.html = "" then "<html></html>" else input.html)
  let query (selector : String) : Option Node := document.head.bind fun head => head selector
  let baseEl := query "base[href]"
  let rawBase := (baseEl.bind fun el => el.getAttribute "href").getD input.finalUrl
  let baseUrl := (resolveHref p rawBase input.finalUrl).getD input.finalUrl
  let metaRobotsEl := query "meta[name=\"robots\" i]"
  let metaRobots := (metaRobotsEl.bind fun el => el.getAttribute "content").map fun content =>
    trim (lowerText content)
  let xRobotsHeader := (input.responseHeaders.lookup "x-robots-tag").or
    (input.responseHeaders.lookup "X-Robots-Tag")
  let xRobotsTag := (xRobotsHeader.filter (· ≠ "")).map lowerText
  let indexable := !isNoindex metaRobots && !isNoindex xRobotsTag
  let canonicalEl := query "link[rel=\"canonical\" i][href]"
  let canonicalRaw := canonicalEl.bind fun el => el.getAttribute "href"
  let canonical := (canonicalRaw.filter (· ≠ "")).bind fun raw => resolveHref p raw baseUrl
  let canonicalMatches := (canonical.filter (· ≠ "")).elim true fun canonical =>
    urlsEqualForCanonical p canonical input.finalUrl
  let occurrences := scanDocument p baseUrl input.acceptorHost document
  { baseUrl, metaRobots, xRobotsTag, indexable, canonical, canonicalMatches, occurrences }

def normalizeAcceptor (newURL : UrlParser) (input : String) : Except String String :=
  extractAcceptorHost newURL input

end LinkBulker.Parser
