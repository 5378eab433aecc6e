/-!
The page of the dashboard: a table of the schedules that refreshes itself in the browser.
-/
namespace ScheduledScaling.Dashboard

/-- The title and the styles. -/
def pageHead : List String :=
  ["<!DOCTYPE html>",
    "<html lang=\"en\">",
    "<head>",
    "<meta charset=\"utf-8\">",
    "<title>CronScale Schedules</title>",
    "<style>",
    "  body \x7b font-family: system-ui, sans-serif; margin: 2rem; color: #222; \x7d",
    "  h1 \x7b font-size: 1.4rem; \x7d",
    "  table \x7b border-collapse: collapse; width: 100%; \x7d",
    "  th, td \x7b text-align: left; padding: 0.4rem 0.6rem; border-bottom: 1px solid #ddd; \x7d",
    "  th \x7b background: #f5f5f5; \x7d",
    "  .ready \x7b color: #1a7f37; \x7d",
    "  .not-ready \x7b color: #cf222e; \x7d",
    "  .scaled-down \x7b color: #9a6700; \x7d",
    "  .muted \x7b color: #777; \x7d",
    "  #error \x7b color: #cf222e; \x7d",
    "</style>",
    "</head>"]

/-- The empty table. -/
def pageBody : List String :=
  ["<body>",
    "<h1>CronScale Schedules</h1>",
    "<p>",
    "  <button data-action=\"refresh\">Refresh</button>",
    "  <span class=\"muted\" id=\"updated\"></span>",
    "  <span id=\"error\"></span>",
    "</p>",
    "<table>",
    "  <thead>",
    "    <tr>",
    "      <th>Schedule</th>",
    "      <th>Target</th>",
    "      <th>Scale down</th>",
    "      <th>Scale up</th>",
    "      <th>Cleanup</th>",
    "      <th>Replicas</th>",
    "      <th>State</th>",
    "      <th>Last scale down</th>",
    "      <th>Last scale up</th>",
    "      <th>Last cleanup</th>",
    "      <th>Message</th>",
    "    </tr>",
    "  </thead>",
    "  <tbody id=\"schedules\"></tbody>",
    "</table>"]

/-- The script that fills the table. -/
def pageScript : List String :=
  ["<script>",
    "const REFRESH_MS = 30000;",
    "",
    "function escapeHtml(value) \x7b",
    "  return String(value ?? '')",
    "    .replace(/&/g, '&amp;')",
    "    .replace(/</g, '&lt;')",
    "    .replace(/>/g, '&gt;')",
    "    .replace(/\"/g, '&quot;');",
    "\x7d",
    "",
    "function when(value) \x7b",
    "  return value ? new Date(value).toLocaleString() : 'Never';",
    "\x7d",
    "",
    "function state(schedule) \x7b",
    "  const probe = schedule.targetStatus;",
    "  if (!probe) return '<span class=\"muted\">Unknown</span>';",
    "  if (probe.desiredReplicas === 0) return '<span class=\"scaled-down\">Scaled down</span>';",
    "  return probe.ready",
    "    ? '<span class=\"ready\">Ready</span>'",
    "    : '<span class=\"not-ready\">Not ready</span>';",
    "\x7d",
    "",
    "function replicas(schedule) \x7b",
    "  const probe = schedule.targetStatus;",
    "  if (!probe) return escapeHtml(schedule.currentReplicas);",
    "  return `$\x7bprobe.readyReplicas\x7d/$\x7bprobe.desiredReplicas\x7d`;",
    "\x7d",
    "",
    "function row(schedule) \x7b",
    "  const target = schedule.targetRef",
    "    ? `$\x7bescapeHtml(schedule.targetRef.kind)\x7d $\x7bescapeHtml(schedule.targetRef.namespace)\x7d/$\x7bescapeHtml(schedule.targetRef.name)\x7d`",
    "    : '<span class=\"muted\">none</span>';",
    "  return `<tr>",
    "    <td>$\x7bescapeHtml(schedule.namespace)\x7d/$\x7bescapeHtml(schedule.name)\x7d</td>",
    "    <td>$\x7btarget\x7d</td>",
    "    <td><code>$\x7bescapeHtml(schedule.scaleDownSchedule)\x7d</code></td>",
    "    <td><code>$\x7bescapeHtml(schedule.scaleUpSchedule)\x7d</code></td>",
    "    <td><code>$\x7bescapeHtml(schedule.cleanupSchedule)\x7d</code></td>",
    "    <td>$\x7breplicas(schedule)\x7d</td>",
    "    <td>$\x7bstate(schedule)\x7d</td>",
    "    <td>$\x7bwhen(schedule.lastScaleDownTime)\x7d</td>",
    "    <td>$\x7bwhen(schedule.lastScaleUpTime)\x7d</td>",
    "    <td>$\x7bwhen(schedule.lastCleanupTime)\x7d ($\x7bescapeHtml(schedule.lastCleanupResourceCount)\x7d)</td>",
    "    <td>$\x7bescapeHtml(schedule.message)\x7d</td>",
    "  </tr>`;",
    "\x7d",
    "",
    "async function refresh() \x7b",
    "  const error = document.getElementById('error');",
    "  try \x7b",
    "    const response = await fetch('/api/v1/schedules');",
    "    if (!response.ok) throw new Error(`HTTP $\x7bresponse.status\x7d`);",
    "    const schedules = await response.json();",
    "    document.getElementById('schedules').innerHTML = schedules.length",
    "      ? schedules.map(row).join('')",
    "      : '<tr><td colspan=\"11\" class=\"muted\">No schedules</td></tr>';",
    "    document.getElementById('updated').textContent = `Updated $\x7bnew Date().toLocaleTimeString()\x7d`;",
    "    error.textContent = '';",
    "  \x7d catch (e) \x7b",
    "    error.textContent = `Failed to load schedules: $\x7be.message\x7d`;",
    "  \x7d",
    "\x7d",
    "",
    "document.querySelector('[data-action=\"refresh\"]').addEventListener('click', refresh);",
    "refresh();",
    "setInterval(refresh, REFRESH_MS);",
    "</script>",
    "</body>",
    "</html>"]

/-- The page; every line ends with a line feed. -/
def page : String := String.join ((pageHead ++ pageBody ++ pageScript).map (· ++ "\n"))

end ScheduledScaling.Dashboard
