import StonePlus.Js.Json
import StonePlus.Js.Map
import StonePlus.Lib.Run

/-!
# StonePlus.Browser.ImportQueue

The queue of downloaded JSON files that wait to be imported.

`stageDownload` runs at once; `finishDownload` awaits the file's size, its text, the cache and
the removal of the staged file, so anything may happen between its parts.  A call holds on to
the item it has found; once the item is removed from the queue, what the call does to it is lost.
-/

namespace StonePlus.Browser

def maxItemBytes : Nat := 4 * 1024 * 1024
def maxQueueBytes : Nat := 32 * 1024 * 1024
def maxQueueItems : Nat := 100

inductive PendingJsonStatus
  | downloading
  | ready
  | failed
  deriving DecidableEq

structure PrivateQueueItem where
  id : Nat
  sizeBytes : Nat
  status : PendingJsonStatus
  error : Option JsString
  content : Option JsString
  deriving DecidableEq

/-- What a download waits for. -/
inductive Stage
  | done
  | stat
  | readFile (size : Nat)
  | cacheDownload
  | rm
  deriving DecidableEq

/-- The queue, and the downloads it has a handler for; `nextId` stands for `randomUUID`. -/
structure BrowserImportQueue where
  items : JsMap Nat PrivateQueueItem
  downloads : JsMap Nat Stage
  nextId : Nat

namespace BrowserImportQueue

def empty : BrowserImportQueue := ⟨JsMap.empty, JsMap.empty, 0⟩

/-- An assignment to the properties of an item, which the map shares. -/
def updateItem (s : BrowserImportQueue) (id : Nat) (f : PrivateQueueItem → PrivateQueueItem) :
    BrowserImportQueue :=
  match s.items.get? id with
  | some item => { s with items := s.items.set id (f item) }
  | none => s

def setStage (s : BrowserImportQueue) (id : Nat) (stage : Stage) : BrowserImportQueue :=
  { s with downloads := s.downloads.set id stage }

def endDownload (s : BrowserImportQueue) (id : Nat) : BrowserImportQueue :=
  { s with downloads := s.downloads.delete id }

def currentBytes (s : BrowserImportQueue) (excludeId : Option Nat) : Nat :=
  ((s.items.values.filter fun item => some item.id ≠ excludeId).map (·.sizeBytes)).sum

/-- How staging a download that is not refused goes on. -/
inductive Staging
  | registered
  | directoryFails
  | listenerFails
  deriving DecidableEq

/-- `stageDownload`, with the handler that cancels a download when it throws.  A refused item
stays in the queue with the size it was announced with. -/
def stageDownload (s : BrowserImportQueue) (totalBytes : Int) (staging : Staging) :
    BrowserImportQueue :=
  let id := s.nextId
  let announcedBytes := totalBytes.toNat
  let s := { s with nextId := id + 1 }
  if maxQueueItems ≤ s.items.size ∨ maxQueueBytes < s.currentBytes none + announcedBytes then
    let error :=
      if maxQueueItems ≤ s.items.size then js "挂起队列已达到 100 个文件上限。"
      else js "挂起队列总大小不能超过 32 MB。"
    { s with items := s.items.set id ⟨id, announcedBytes, .failed, some error, none⟩ }
  else if maxItemBytes < announcedBytes then
    let error := js "单个 JSON 文件不能超过 4 MB。"
    { s with items := s.items.set id ⟨id, announcedBytes, .failed, some error, none⟩ }
  else
    match staging with
    | .directoryFails => s
    | .listenerFails =>
      { s with items := s.items.set id ⟨id, announcedBytes, .downloading, none, none⟩ }
    | .registered =>
      setStage { s with items := s.items.set id ⟨id, announcedBytes, .downloading, none, none⟩ }
        id .done

/-- `/JSON|Unexpected token|Unexpected end/i.test(message)`. -/
def mentionsJson (message : JsString) : Bool :=
  [js "json", js "unexpected token", js "unexpected end"].any fun word =>
    decide (word <:+: toLowerCase message)

def queueErrorMessage (message : JsString) : JsString :=
  if mentionsJson message then js "下载内容不是有效 JSON。" else message.take 240

/-- The `catch` block of `finishDownload`. -/
def fail (s : BrowserImportQueue) (id : Nat) (message : JsString) : BrowserImportQueue :=
  (s.updateItem id fun item =>
    { item with
      status := .failed, sizeBytes := 0, content := none,
      error := some (queueErrorMessage message) }).setStage id .rm

/-- `finishDownload` up to its first `await`. -/
def finishDownload (s : BrowserImportQueue) (id : Nat) (state : JsString) : BrowserImportQueue :=
  if !s.items.has id then s.endDownload id
  else if state ≠ js "completed" then
    s.fail id (if state = js "cancelled" then js "下载已取消。" else js "下载未完成。")
  else s.setStage id .stat

/-- What `stat` tells of a file. -/
structure FileInfo where
  isFile : Bool
  size : Nat

def afterStat (s : BrowserImportQueue) (id : Nat) (result : Except JsString FileInfo) :
    BrowserImportQueue :=
  match result with
  | .error message => s.fail id message
  | .ok info =>
    if !info.isFile then s.fail id (js "下载结果不是普通文件。")
    else if maxItemBytes < info.size then s.fail id (js "单个 JSON 文件不能超过 4 MB。")
    else if maxQueueBytes < s.currentBytes (some id) + info.size then
      s.fail id (js "挂起队列总大小不能超过 32 MB。")
    else s.setStage id (.readFile info.size)

/-- The text has been read; all messages of `JSON.parse` name JSON or an unexpected token. -/
def afterRead (s : BrowserImportQueue) (id size : Nat) (result : Except JsString JsString) :
    BrowserImportQueue :=
  match result with
  | .error message => s.fail id message
  | .ok content =>
    if (Json.parse content).isNone then s.fail id (js "Unexpected token")
    else (s.updateItem id fun item =>
      { item with content := some content, sizeBytes := size, error := none }).setStage id
        .cacheDownload

def afterCache (s : BrowserImportQueue) (id : Nat) (result : Except JsString Unit) :
    BrowserImportQueue :=
  (s.updateItem id fun item =>
    { item with
      status := .ready,
      error := match result with
        | .ok _ => item.error
        | .error message =>
          some (js "JSON 已挂起，但写入下载缓存失败：" ++ queueErrorMessage message) }).setStage id .rm

/-- What happens to a queue.  The imports that are removed one by one or together, and all of
them, are `removeMany` and `clear`. -/
inductive Event
  | willDownload (totalBytes : Int) (staging : Staging)
  | done (id : Nat) (state : JsString)
  | stat (id : Nat) (result : Except JsString FileInfo)
  | readFile (id : Nat) (result : Except JsString JsString)
  | cacheDownload (id : Nat) (result : Except JsString Unit)
  | rm (id : Nat)
  | removeMany (ids : List Nat)
  | clear

/-- An event that answers a download counts only while the download waits for it. -/
def step (s : BrowserImportQueue) : Event → BrowserImportQueue
  | .willDownload totalBytes staging => s.stageDownload totalBytes staging
  | .done id state => if s.downloads.get? id = some .done then s.finishDownload id state else s
  | .stat id result => if s.downloads.get? id = some .stat then s.afterStat id result else s
  | .readFile id result =>
    match s.downloads.get? id with
    | some (.readFile size) => s.afterRead id size result
    | _ => s
  | .cacheDownload id result =>
    if s.downloads.get? id = some .cacheDownload then s.afterCache id result else s
  | .rm id => if s.downloads.get? id = some .rm then s.endDownload id else s
  | .removeMany ids => { s with items := s.items.filterKeys fun id => decide (id ∉ ids) }
  | .clear => { s with items := JsMap.empty }

end BrowserImportQueue

end StonePlus.Browser
